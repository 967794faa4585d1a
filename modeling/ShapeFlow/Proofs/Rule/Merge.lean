import ShapeFlow.Proofs.Rule.Collapse

/-! Axes merged and set apart again. The rule counts the sizes of a run of axes and puts the number in place
    of them, so the sizes around the run stay and the product stays the same. A product on the way
    over the merged shape is one on the way over the shape there was, so where the elements of the
    tensor could be counted they can be counted still; and a shape that can be counted takes its own
    elements, which brings the run back. -/

namespace ShapeFlow

namespace Dims

variable {dims : Dims} {i j : Nat}

/-! ### Shapes with a run of sizes made one -/

theorem take_append_span_append_drop (hij : i ≤ j) :
    dims.take i ++ dims.span i j ++ dims.drop (j + 1) = dims := by
  have hfront : dims.take i = (dims.take (j + 1)).take i := by
    rw [List.take_take, Nat.min_eq_left (by omega)]
  rw [hfront, span, List.take_append_drop, List.take_append_drop]

section Splice

variable (hij : i ≤ j) (hj : j < dims.length) (size : Int)
include hij hj

theorem length_splice : (dims.splice i j size).length + (j - i) = dims.length := by
  simp only [splice, List.length_append, List.length_take, List.length_drop, List.length_singleton]
  omega

theorem take_splice : (dims.splice i j size).take i = dims.take i := by
  have hi : (dims.take i).length = i := by rw [List.length_take]; omega
  rw [splice, List.append_assoc, List.take_left' hi]

theorem drop_splice : (dims.splice i j size).drop (i + 1) = dims.drop (j + 1) := by
  refine List.drop_left' ?_
  rw [List.length_append, List.length_take, List.length_singleton]
  omega

end Splice

theorem prod_splice (hij : i ≤ j) : (dims.splice i j (dims.span i j).prod).prod = dims.prod := by
  calc (dims.splice i j (dims.span i j).prod).prod
      = (dims.take i ++ dims.span i j ++ dims.drop (j + 1)).prod := by
        simp only [splice, List.prod_append, List.prod_singleton]
    _ = dims.prod := by rw [take_append_span_append_drop hij]

/-- A product on the way over a shape with a run made one is a product on the way over the shape. -/
theorem Counted.merge {front run back : Dims} (h : (front ++ run ++ back).Counted) :
    (front ++ [run.prod] ++ back).Counted := by
  intro part hpart
  rw [List.append_assoc] at hpart
  rcases List.prefix_or_prefix_of_prefix hpart (List.prefix_append front _) with hin | ⟨tail, rfl⟩
  · refine h part (hin.trans ?_)
    rw [List.append_assoc]
    exact List.prefix_append _ _
  · rw [List.prefix_append_right_inj, List.singleton_append, List.prefix_cons_iff] at hpart
    obtain rfl | ⟨tail, rfl, htail⟩ := hpart
    · rw [List.append_nil]
      refine h front ?_
      rw [List.append_assoc]
      exact List.prefix_append _ _
    · have hfits := h (front ++ run ++ tail) ((List.prefix_append_right_inj _).2 htail)
      rwa [List.prod_append, List.prod_append, Int.mul_assoc, ← List.prod_cons, ← List.prod_append]
        at hfits

theorem Counted.splice (hij : i ≤ j) (h : dims.Counted) :
    (dims.splice i j (dims.span i j).prod).Counted :=
  Counted.merge (by rwa [take_append_span_append_drop hij])

end Dims

namespace Reshape

variable {x first last : ValueInfo} {dims : Dims} {start stop : Int}

/-- Axes are merged from one that is not behind the last, if their sizes can be counted. -/
theorem flatten_span_ok_iff (hx : x.asTensor = .ok dims) (hne : dims ≠ [])
    (hr : (dims.length : Int) ≤ Word.greatest) (hfirst : first.asInt = .ok start)
    (hlast : last.asInt = .ok stop) (made : List ValueInfo) :
    flatten [x, first, last] = .ok made ↔
      ∃ i j : Nat, (start = i ∨ start = i - dims.length) ∧ (stop = j ∨ stop = j - dims.length) ∧
        i ≤ j ∧ j < dims.length ∧ (dims.span i j).Counted ∧
        made = [.tensor (dims.splice i j (dims.span i j).prod) x.elem] := by
  rw [flatten_eq hx hne hfirst hlast]
  simp only [Outcome.bind_ok_iff, Axis.resolve_ok_iff hr]
  constructor
  · rintro ⟨i, ⟨-, hi⟩, j, ⟨hlt, hj⟩, h⟩
    split at h
    · cases h
    · next hle =>
      obtain ⟨n, hn, h⟩ := Outcome.bind_ok_iff.1 h
      obtain ⟨hcounted, rfl⟩ := Dims.count_ok_iff.1 hn
      cases h
      exact ⟨i, j, hi, hj, Nat.not_lt.1 hle, hlt, hcounted, rfl⟩
  · rintro ⟨i, j, hi, hj, hle, hlt, hcounted, rfl⟩
    refine ⟨i, ⟨by omega, hi⟩, j, ⟨hlt, hj⟩, ?_⟩
    rw [if_neg (Nat.not_lt.2 hle), Dims.count_ok_iff.2 ⟨hcounted, rfl⟩]
    rfl

/-- A tensor reshapes to each shape without negative sizes that counts to the same. -/
theorem reshape_to {y shape : ValueInfo} {sizes : Dims} (hy : y.asTensor = .ok sizes)
    (hsizes : sizes.Counted) (ht : shape.asInts = .ok dims) (hn : dims.Nonneg) (hc : dims.Counted)
    (hprod : sizes.prod = dims.prod) : reshape [y, shape] = .ok [.tensor dims y.elem] := by
  have hclosed : -1 ∉ dims := fun hmem => absurd (hn _ hmem) (by decide)
  have hcount : sizes.count = .ok dims.prod := Dims.count_ok_iff.2 ⟨hsizes, hprod⟩
  refine (reshape_ok_iff hy hcount ht).2 ⟨takes_self hn hc, ?_⟩
  rw [resolved_of_not_mem hclosed]

end Reshape

/-- MERGE: the axes from one to another one that is not in front of it are merged if their sizes can be
    counted. The result has one axis for them; around it stand the sizes there were, and the product
    of all sizes is the same. If none of the sizes is negative and all of them can be counted, the
    result reshapes to the tensor there was, with its type. -/
theorem Rule.infer_flatten_reshape_back {x first last : ValueInfo} {dims : Dims} {start stop : Int}
    (hx : x.asTensor = .ok dims) (hne : dims ≠ []) (hr : (dims.length : Int) ≤ Word.greatest)
    (hfirst : first.asInt = .ok start) (hlast : last.asInt = .ok stop) :
    ((∃ made, Rule.flatten.infer [x, first, last] = .ok made) ↔
      ∃ s e : Nat, (start = s ∨ start = s - dims.length) ∧ (stop = e ∨ stop = e - dims.length) ∧
        s ≤ e ∧ e < dims.length ∧ (dims.span s e).Counted) ∧
    ∀ made, Rule.flatten.infer [x, first, last] = .ok made →
      ∃ (s e : Nat) (sizes : Dims),
        (start = s ∨ start = s - dims.length) ∧ (stop = e ∨ stop = e - dims.length) ∧
        s ≤ e ∧ e < dims.length ∧ made = [.tensor sizes x.elem] ∧
        sizes.length = dims.length - (e - s) ∧ sizes.take s = dims.take s ∧
        sizes.drop (s + 1) = dims.drop (e + 1) ∧ sizes.prod = dims.prod ∧
        (dims.Nonneg → dims.Counted → ∀ shape : ValueInfo, shape.asInts = .ok dims →
          Rule.reshape.infer [.tensor sizes x.elem, shape] = .ok [.tensor dims x.elem]) := by
  have hok := Reshape.flatten_span_ok_iff hx hne hr hfirst hlast
  refine ⟨⟨?_, ?_⟩, fun made h => ?_⟩
  · rintro ⟨made, h⟩
    obtain ⟨s, e, hs, he, hle, hlt, hcounted, -⟩ := (hok _).1 h
    exact ⟨s, e, hs, he, hle, hlt, hcounted⟩
  · rintro ⟨s, e, hs, he, hle, hlt, hcounted⟩
    exact ⟨_, (hok _).2 ⟨s, e, hs, he, hle, hlt, hcounted, rfl⟩⟩
  · obtain ⟨s, e, hs, he, hle, hlt, -, rfl⟩ := (hok _).1 h
    have hlength := Dims.length_splice hle hlt (dims.span s e).prod
    refine ⟨s, e, _, hs, he, hle, hlt, rfl, by omega, Dims.take_splice hle hlt _,
      Dims.drop_splice hle hlt _, Dims.prod_splice hle, fun hn hc shape ht => ?_⟩
    exact Reshape.reshape_to (ValueInfo.asTensor_tensor _ x.elem) (hc.splice hle) ht hn hc
      (Dims.prod_splice hle)

/-- Two inner axes made one and set apart again. A negative size is counted like any other. -/
theorem Rule.infer_flatten_reshape_back_inner :
    (Rule.flatten.infer [.tensor [2, 3, 4, 5] (some .float), .scalar 1 .int64, .scalar (-2) .int64]
        = .ok [.tensor [2, 12, 5] (some .float)] ∧
      Rule.reshape.infer [.tensor [2, 12, 5] (some .float), .intList [2, 3, 4, 5]]
        = .ok [.tensor [2, 3, 4, 5] (some .float)]) ∧
    ∃ made, Rule.flatten.infer [.tensor [2, -3, 4] none, .scalar (-2) .int64, .scalar 2 .int64]
      = .ok made := by
  constructor
  · have h := Rule.infer_flatten_reshape_back (ValueInfo.asTensor_tensor [2, 3, 4, 5] (some .float))
      (by decide) (by decide) (ValueInfo.asInt_scalar 1 .int64) (ValueInfo.asInt_scalar (-2) .int64)
    have hmade : Rule.flatten.infer [.tensor [2, 3, 4, 5] (some .float), .scalar 1 .int64,
        .scalar (-2) .int64] = .ok [.tensor [2, 12, 5] (some .float)] := rfl
    obtain ⟨s, e, sizes, -, -, -, -, hsizes, -, -, -, -, hback⟩ := h.2 _ hmade
    cases hsizes
    exact ⟨hmade, hback (by decide) (by decide) _ (ValueInfo.asInts_intList [2, 3, 4, 5])⟩
  · have h := Rule.infer_flatten_reshape_back (ValueInfo.asTensor_tensor [2, -3, 4] none)
      (by decide) (by decide) (ValueInfo.asInt_scalar (-2) .int64) (ValueInfo.asInt_scalar 2 .int64)
    exact h.1.2 ⟨1, 2, by decide⟩

end ShapeFlow
