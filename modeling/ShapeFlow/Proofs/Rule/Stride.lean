import ShapeFlow.Proofs.Rule.Range

/-! Cuts of cuts. The positions of a cut are numbered anew, from its first one on, so every `b`-th of them
    lies `b` strides of `a` behind the one before, which is a stride of `a * b`. How many there are is
    a quotient rounded up in both ways, but the roundings are never compared: a stride is counted
    exactly if its position lies before the end, and that is the same inequality for both. -/

namespace ShapeFlow

namespace Slice

variable {lo hi size a b : Int}

/-- Strides of `b` over the strides of `a` are the strides of `a * b`. -/
theorem steps_steps (ha : 0 < a) (hb : 0 < b) :
    steps 0 (steps lo hi a) b = steps lo hi (a * b) := by
  obtain ⟨m, rfl⟩ := Int.eq_ofNat_of_zero_le hb.le
  refine eq_of_forall_lt_iff fun i => ?_
  have houter : i < steps 0 (steps lo hi a) m ↔ i * m < steps lo hi a := by
    rw [lt_steps_iff hb, Int.zero_add]
    norm_cast
  have hplace : lo + ((i * m : ℕ) : Int) * a = lo + i * (a * m) := by
    push_cast
    ring
  rw [houter, lt_steps_iff ha, hplace, lt_steps_iff (Int.mul_pos ha hb)]

/-- A cut takes no more positions than the axis has. -/
theorem steps_edge_le (hs : 0 < a) (hsize : 0 ≤ size) (start stop : Int) :
    (steps (edge size start) (edge size stop) a : Int) ≤ size := by
  rcases Int.le_total (edge size start) (edge size stop) with h | h
  · have hwidth := steps_le hs h
    have hlo := edge_nonneg size start
    have hhi := edge_le hsize stop
    omega
  · rw [steps_eq_zero hs h]
    exact hsize

/-- A cut from the begin up to an end that is past every axis has the strides of the whole axis. -/
theorem length_whole (hfits : Word.Fits size) (hsize : 0 ≤ size) (hs : 0 < a) :
    length size 0 Word.greatest a = .ok (steps 0 size a) := by
  rw [length_of_nonneg hfits hsize 0 Word.greatest hs, edge_of_mem (Int.le_refl 0) hsize,
    edge_of_le hsize hfits.2]

end Slice

/-- COMPOSED: cutting a range with one step and the whole of the cut with another is cutting the range
    with the product of the steps. All three cuts are made, and the last two come to the same sizes
    and type. The range may be the whole axis, an empty one or shorter than a step. -/
theorem Rule.infer_slice_composed {x axis first last zero whole every few both : ValueInfo}
    {dims : Dims} {d start stop a b size : Int} {position : Nat} (hx : x.asTensor = .ok dims)
    (hr : (dims.length : Int) ≤ Word.greatest) (hd : axis.asInt = .ok d)
    (hnames : d = position ∨ d = position - dims.length) (hsize : dims[position]? = some size)
    (hfits : Word.Fits size) (hnonneg : 0 ≤ size) (hstart : first.asInt = .ok start)
    (hstop : last.asInt = .ok stop) (hzero : zero.asInt = .ok 0)
    (hwhole : whole.asInt = .ok Word.greatest) (ha : 1 ≤ a) (hb : 1 ≤ b)
    (hevery : every.asInt = .ok a) (hfew : few.asInt = .ok b) (hboth : both.asInt = .ok (a * b)) :
    ∃ m n : ℕ,
      Rule.slice.infer [x, axis, first, last, every]
        = .ok [.tensor (dims.set position m) x.elem] ∧
      Rule.slice.infer [.tensor (dims.set position m) x.elem, axis, zero, whole, few]
        = .ok [.tensor (dims.set position n) x.elem] ∧
      Rule.slice.infer [x, axis, first, last, both]
        = .ok [.tensor (dims.set position n) x.elem] := by
  obtain ⟨hlt, -⟩ := List.getElem?_eq_some_iff.1 hsize
  have hresolve : Axis.resolve dims.length d = .ok position := Axis.resolve_eq hr hlt hnames
  let m := Slice.steps (Slice.edge size start) (Slice.edge size stop) a
  have hthin := Slice.slice_eq hx hd hresolve hstart hstop hevery ha hsize
    (Slice.length_of_nonneg hfits hnonneg start stop ha)
  have hdirect := Slice.slice_eq hx hd hresolve hstart hstop hboth (Int.mul_pos ha hb) hsize
    (Slice.length_of_nonneg hfits hnonneg start stop (Int.mul_pos ha hb))
  have hmost : (m : Int) ≤ size := Slice.steps_edge_le ha hnonneg start stop
  have hword : Word.Fits m := ⟨by rw [Word.least]; omega, hmost.trans hfits.2⟩
  have hsize' : (dims.set position m)[position]? = some (m : Int) := List.getElem?_set_self hlt
  have hresolve' : Axis.resolve (dims.set position (m : Int)).length d = .ok position := by
    rwa [List.length_set]
  have hagain := Slice.slice_eq (ValueInfo.asTensor_tensor _ x.elem) hd hresolve' hzero hwhole hfew
    hb hsize' (Slice.length_whole hword (Int.natCast_nonneg m) hb)
  rw [List.set_set, Slice.steps_steps ha hb] at hagain
  exact ⟨m, _, hthin, hagain, hdirect⟩

/-- Every second of every third of ten columns, and a product of steps that is the greatest word. -/
theorem Rule.infer_slice_composed_columns :
    (Rule.slice.infer [.tensor [2, 10] (some .float), .scalar (-1) .int64, .scalar 0 .int64,
        .scalar Word.greatest .int64, .scalar 3 .int64] = .ok [.tensor [2, 4] (some .float)] ∧
      Rule.slice.infer [.tensor [2, 4] (some .float), .scalar (-1) .int64, .scalar 0 .int64,
        .scalar Word.greatest .int64, .scalar 2 .int64] = .ok [.tensor [2, 2] (some .float)] ∧
      Rule.slice.infer [.tensor [2, 10] (some .float), .scalar (-1) .int64, .scalar 0 .int64,
        .scalar Word.greatest .int64, .scalar 6 .int64] = .ok [.tensor [2, 2] (some .float)]) ∧
    Rule.slice.infer [.tensor [2, 2] (some .float), .scalar (-1) .int64, .scalar 0 .int64,
        .scalar Word.greatest .int64, .scalar 1317624576693539401 .int64]
      = .ok [.tensor [2, 1] (some .float)] ∧
    Rule.slice.infer [.tensor [2, 10] (some .float), .scalar (-1) .int64, .scalar 0 .int64,
        .scalar Word.greatest .int64, .scalar Word.greatest .int64]
      = .ok [.tensor [2, 1] (some .float)] := by
  have hlast : (-1 : Int) = (1 : ℕ) ∨ (-1 : Int) = (1 : ℕ) - ([2, 10] : Dims).length := by decide
  have hall {a b c : Int} (ha : 1 ≤ a) (hb : 1 ≤ b) (hc : c = a * b) :=
    Rule.infer_slice_composed (ValueInfo.asTensor_tensor [2, 10] (some .float)) (by decide)
      (ValueInfo.asInt_scalar (-1) .int64) hlast rfl (by decide) (by decide)
      (ValueInfo.asInt_scalar 0 .int64) (ValueInfo.asInt_scalar Word.greatest .int64)
      (ValueInfo.asInt_scalar 0 .int64) (ValueInfo.asInt_scalar Word.greatest .int64) ha hb
      (ValueInfo.asInt_scalar a .int64) (ValueInfo.asInt_scalar b .int64)
      (hc ▸ ValueInfo.asInt_scalar c .int64)
  constructor
  · obtain ⟨m, n, hthin, hagain, hdirect⟩ := hall (a := 3) (b := 2) (c := 6) (by decide) (by decide) rfl
    cases hthin
    cases hagain
    exact ⟨rfl, rfl, hdirect⟩
  · obtain ⟨m, n, hthin, hagain, hdirect⟩ := hall (a := 7) (b := 1317624576693539401)
      (c := Word.greatest) (by decide) (by decide) rfl
    cases hthin
    cases hagain
    exact ⟨rfl, hdirect⟩

end ShapeFlow
