import ShapeFlow.Proofs.Rule.Listing

/-! A tensor cut in two. The place of the cut is the end of the first part and the begin of the second one.
    It is brought onto the axis in the same way for both, so where the first part stops the second
    one starts, wherever that is: inside the axis, in front of it or past it. The two lengths add up
    to the size of the axis, and joining the parts gives the tensor back. -/

namespace ShapeFlow

namespace Slice

variable {size : Int} (hfits : Word.Fits size) (hsize : 0 ≤ size) (m : Int)
include hfits hsize

/-- From the begin of an axis up to an end. -/
theorem length_upto : length size 0 m 1 = .ok (edge size m) := by
  rw [length_of_nonneg hfits hsize 0 m (by decide), edge_of_mem (Int.le_refl 0) hsize,
    steps_one (edge_nonneg size m), Int.sub_zero]

/-- From a begin on, with an end that is past every axis. -/
theorem length_onwards : length size m Word.greatest 1 = .ok (size - edge size m) := by
  rw [length_of_nonneg hfits hsize m Word.greatest (by decide), edge_of_le hsize hfits.2,
    steps_one (edge_le hsize m)]

end Slice

/-- Two cuts that make up the axis join to the whole. -/
theorem Concat.shapes_pair {dims : Dims} {d : Int} {axis : Nat}
    (hr : Axis.resolve dims.length d = .ok axis) {size lo : Int} (hsize : dims[axis]? = some size)
    (hfits : Word.Fits size) (hlo : 0 ≤ lo) (hle : lo ≤ size) :
    shapes [dims.set axis lo, dims.set axis (size - lo)] d = .ok dims := by
  have hsum : [lo, size - lo].sum = size := by simp
  have hparts : ∀ part ∈ [lo, size - lo], 0 ≤ part := by
    simp only [List.forall_mem_cons, List.not_mem_nil, false_implies, implies_true, and_true]
    exact ⟨hlo, Int.sub_nonneg.2 hle⟩
  have hjoin := shapes_map_set hr (List.cons_ne_nil _ _) hparts (by rwa [hsum])
  rwa [hsum, Dims.set_of_getElem? hsize] at hjoin

/-- REJOIN: a tensor can be cut in two along an axis at any place whatever, and its two parts join along
    that axis to the tensor again, with its shape and type. -/
theorem Rule.infer_slice_rejoin {x axis zero place last one : ValueInfo} {dims : Dims}
    {d m size : Int} {position : Nat} (hx : x.asTensor = .ok dims)
    (hr : (dims.length : Int) ≤ Word.greatest) (hd : axis.asInt = .ok d)
    (hnames : d = position ∨ d = position - dims.length) (hsize : dims[position]? = some size)
    (hfits : Word.Fits size) (hnonneg : 0 ≤ size) (hzero : zero.asInt = .ok 0)
    (hm : place.asInt = .ok m) (hlast : last.asInt = .ok Word.greatest)
    (hone : one.asInt = .ok 1) :
    ∃ front back list : ValueInfo,
      Rule.slice.infer [x, axis, zero, place, one] = .ok [front] ∧
      Rule.slice.infer [x, axis, place, last, one] = .ok [back] ∧
      Rule.listConstruct.infer [front, back] = .ok [list] ∧
      Rule.concat.infer [list, axis] = .ok [.tensor dims x.elem] := by
  obtain ⟨hlt, -⟩ := List.getElem?_eq_some_iff.1 hsize
  have hresolve : Axis.resolve dims.length d = .ok position := Axis.resolve_eq hr hlt hnames
  have hfront := Slice.slice_eq hx hd hresolve hzero hm hone (by decide) hsize
    (Slice.length_upto hfits hnonneg m)
  have hback := Slice.slice_eq hx hd hresolve hm hlast hone (by decide) hsize
    (Slice.length_onwards hfits hnonneg m)
  have hjoin := Concat.shapes_pair hresolve hsize hfits (Slice.edge_nonneg size m)
    (Slice.edge_le hnonneg m)
  refine ⟨_, _, _, hfront, hback, Listing.construct_tensors _ [_] x.elem, ?_⟩
  rw [infer, Concat.concat_eq (ValueInfo.asTensorList_tensorList _ _) hd, hjoin]
  rfl

/-- Ten columns cut in front of the third last one. A cut by the least word leaves the first part empty. -/
theorem Rule.infer_slice_rejoin_columns :
    (Rule.slice.infer [.tensor [2, 10] (some .float), .scalar (-1) .int64, .scalar 0 .int64,
        .scalar (-3) .int64, .scalar 1 .int64] = .ok [.tensor [2, 7] (some .float)] ∧
      Rule.slice.infer [.tensor [2, 10] (some .float), .scalar (-1) .int64, .scalar (-3) .int64,
        .scalar Word.greatest .int64, .scalar 1 .int64] = .ok [.tensor [2, 3] (some .float)] ∧
      Rule.concat.infer [.tensorList [[2, 7], [2, 3]] (some .float), .scalar (-1) .int64]
        = .ok [.tensor [2, 10] (some .float)]) ∧
    Rule.slice.infer [.tensor [2, 10] (some .float), .scalar (-1) .int64, .scalar 0 .int64,
        .scalar Word.least .int64, .scalar 1 .int64] = .ok [.tensor [2, 0] (some .float)] ∧
      Rule.concat.infer [.tensorList [[2, 0], [2, 10]] (some .float), .scalar (-1) .int64]
        = .ok [.tensor [2, 10] (some .float)] := by
  have hlast : (-1 : Int) = (1 : ℕ) ∨ (-1 : Int) = (1 : ℕ) - ([2, 10] : Dims).length := by decide
  have hall (m : Int) := Rule.infer_slice_rejoin (ValueInfo.asTensor_tensor [2, 10] (some .float))
    (by decide) (ValueInfo.asInt_scalar (-1) .int64) hlast rfl (by decide) (by decide)
    (ValueInfo.asInt_scalar 0 .int64) (ValueInfo.asInt_scalar m .int64)
    (ValueInfo.asInt_scalar Word.greatest .int64) (ValueInfo.asInt_scalar 1 .int64)
  constructor
  · obtain ⟨front, back, list, hfront, hback, hlist, hjoin⟩ := hall (-3)
    cases hfront
    cases hback
    cases hlist
    exact ⟨rfl, rfl, hjoin⟩
  · obtain ⟨front, back, list, hfront, hback, hlist, hjoin⟩ := hall Word.least
    cases hfront
    cases hback
    cases hlist
    exact ⟨rfl, hjoin⟩

end ShapeFlow
