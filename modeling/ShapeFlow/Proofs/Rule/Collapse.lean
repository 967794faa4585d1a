import ShapeFlow.Proofs.Rule.Elements

/-! Reshapes in a row. A reshape reads no more of a tensor than the number of its elements and its type,
    so tensors that agree in both reshape alike. The result of a reshape can be counted again: with a
    size open, no product on the way passes the number of elements, or, where there are none, the
    product of the sizes that were given. It holds all elements then, and the first reshape is lost
    behind the second one. With no size open it may hold fewer, but it still takes its own target. -/

namespace ShapeFlow

namespace Reshape

section Resolved

variable {target : Dims} {count : Int}

/-- For no elements, the sizes of a result other than zero are those that were given. -/
theorem solid_resolved_zero (h : 0 ∉ target) : (resolved target 0).solid = (explicit target).prod := by
  have hsolid : ∀ size ∈ target,
      decide ((if size = -1 then 0 else size) ≠ 0) = decide (size ≠ -1) := by
    intro size hsize
    have hne : size ≠ 0 := ne_of_mem_of_not_mem hsize h
    by_cases hopen : size = -1 <;> simp [hopen, hne]
  have hgiven : ∀ size ∈ explicit target, (if size = -1 then 0 else size) = size := by
    intro size hsize
    exact if_neg (by simpa using (List.mem_filter.1 hsize).2)
  simp only [resolved, Int.zero_ediv, Dims.solid, List.filter_map, Function.comp_def]
  rw [List.filter_congr hsolid, ← explicit, List.map_congr_left hgiven, List.map_id']

namespace Takes

variable (h : Takes target count)
include h

/-- With a size open, the sizes of the result in front of a zero leave a word. -/
theorem leading_resolved_le (hcount : 0 ≤ count) (hfits : Word.Fits count) (hopen : -1 ∈ target) :
    (resolved target count).leading ≤ Word.greatest := by
  have hpos : 0 < (explicit target).prod := (h.pos_of_mem hopen).1
  rcases hcount.eq_or_lt with rfl | hsome
  · have hzero : 0 ∉ target := by
      intro hmem
      have hexplicit : 0 ∈ explicit target := List.mem_filter.2 ⟨hmem, by decide⟩
      exact hpos.ne' (List.prod_eq_zero hexplicit)
    calc (resolved target 0).leading
        ≤ (resolved target 0).solid := Dims.leading_le_solid (h.nonneg_resolved hcount)
      _ = (explicit target).prod := solid_resolved_zero hzero
      _ ≤ Word.greatest := (h.counted _ List.prefix_rfl).2
  · have hzero : 0 ∉ resolved target count := by
      intro hmem
      have hprod := List.prod_eq_zero hmem
      rw [h.prod_resolved hopen] at hprod
      omega
    rw [Dims.leading_of_not_mem hzero, h.prod_resolved hopen]
    exact hfits.2

/-- The result of a reshape can be counted. -/
theorem count_resolved (hcount : 0 ≤ count) (hfits : Word.Fits count) :
    (resolved target count).count = .ok (resolved target count).prod := by
  by_cases hopen : -1 ∈ target
  · rw [Dims.count_eq (h.nonneg_resolved hcount), if_pos (h.leading_resolved_le hcount hfits hopen)]
  · rw [resolved_of_not_mem hopen, Dims.count_ok_iff]
    exact ⟨explicit_of_not_mem hopen ▸ h.counted, rfl⟩

/-- The number of elements that the result holds takes the same target. -/
theorem again : Takes target (resolved target count).prod := by
  by_cases hopen : -1 ∈ target
  · rwa [h.prod_resolved hopen]
  · have hnonneg : target.Nonneg := by
      intro size hsize
      have hleast := h.least size hsize
      have hne : size ≠ -1 := ne_of_mem_of_not_mem hsize hopen
      omega
    rw [resolved_of_not_mem hopen]
    exact takes_self hnonneg (explicit_of_not_mem hopen ▸ h.counted)

/-- The open size is worked out from it once more to the same. -/
theorem resolved_again :
    resolved target (resolved target count).prod = resolved target count := by
  by_cases hopen : -1 ∈ target
  · rw [h.prod_resolved hopen]
  · rw [resolved_of_not_mem hopen, resolved_of_not_mem hopen]

end Takes

end Resolved

variable {x y shape : ValueInfo} {dims sizes : Dims} {count : Int}

/-- Only the number of the elements and their type matter. -/
theorem reshape_congr (hx : x.asTensor = .ok dims) (hy : y.asTensor = .ok sizes)
    (hdims : dims.count = .ok count) (hsizes : sizes.count = .ok count) (helem : y.elem = x.elem)
    (other : ValueInfo) : reshape [y, other] = reshape [x, other] := by
  simp only [reshape_eq_regroup, Operands.two, pure_bind, hx, hy, hdims, hsizes, helem,
    Outcome.ok_bind]

/-- A tensor that is reshaped was counted. -/
theorem count_of_reshape_ok {made : List ValueInfo} (hx : x.asTensor = .ok dims)
    (h : reshape [x, shape] = .ok made) : ∃ count, dims.count = .ok count := by
  simp only [reshape_eq_regroup, Operands.two, pure_bind, hx, Outcome.ok_bind] at h
  obtain ⟨_, -, h⟩ := Outcome.bind_ok_iff.1 h
  obtain ⟨count, hcount, -⟩ := Outcome.bind_ok_iff.1 h
  exact ⟨count, hcount⟩

end Reshape

/-- COLLAPSE: the same reshape twice comes to the same as once; after one with a size open, every further
    reshape comes to what it would have come to at once. Reshaping to one open size is merging all
    axes, for tensors of every kind and down to the error. -/
theorem Rule.infer_reshape_collapse {x : ValueInfo} {dims : Dims} (hx : x.asTensor = .ok dims) :
    (dims.Nonneg → ∀ (shape : ValueInfo) (target : Dims) (made : List ValueInfo),
      shape.asInts = .ok target → Rule.reshape.infer [x, shape] = .ok made →
        ∃ y, made = [y] ∧ Rule.reshape.infer [y, shape] = .ok [y] ∧
          (-1 ∈ target → ∀ other, Rule.reshape.infer [y, other] = Rule.reshape.infer [x, other])) ∧
    ((dims.length : Int) ≤ Word.greatest → ∀ first last whole : ValueInfo,
      first.asInt = .ok 0 → last.asInt = .ok (-1) → whole.asInts = .ok [-1] →
        Rule.reshape.infer [x, whole] = Rule.flatten.infer [x, first, last]) := by
  constructor
  · intro hn shape target made ht h
    obtain ⟨count, hcount⟩ := Reshape.count_of_reshape_ok hx h
    obtain ⟨htakes, rfl⟩ := (Reshape.reshape_ok_iff hx hcount ht).1 h
    have hfits : Word.Fits count := Dims.fits_count count hcount
    have hnonneg : 0 ≤ count := (Dims.count_ok_iff.1 hcount).2 ▸ List.prod_nonneg hn
    have hy := ValueInfo.asTensor_tensor (Reshape.resolved target count) x.elem
    have hsizes := htakes.count_resolved hnonneg hfits
    refine ⟨_, rfl, ?_, fun hopen other => ?_⟩
    · refine (Reshape.reshape_ok_iff hy hsizes ht).2 ⟨htakes.again, ?_⟩
      rw [htakes.resolved_again]
      rfl
    · rw [htakes.prod_resolved hopen] at hsizes
      exact Reshape.reshape_congr hx hy hcount hsizes rfl other
  · intro hr first last whole hfirst hlast hwhole
    exact (Reshape.reshape_eq_count hx hwhole).trans
      (Reshape.flatten_eq_count hx hr hfirst hlast).symm

/-- Twenty-four elements in columns of six, and then in columns of three. A tensor with a negative size,
    and one that is too large, are merged and reshaped alike. -/
theorem Rule.infer_reshape_collapse_columns :
    (Rule.reshape.infer [.tensor [4, 6] (some .float), .intList [-1, 6]]
        = .ok [.tensor [4, 6] (some .float)] ∧
      Rule.reshape.infer [.tensor [4, 6] (some .float), .intList [-1, 3]]
        = Rule.reshape.infer [.tensor [2, 3, 4] (some .float), .intList [-1, 3]]) ∧
    ∀ dims ∈ [[-5, 3], [4294967296, 4294967296], []],
      Rule.reshape.infer [.tensor dims none, .intList [-1]]
        = Rule.flatten.infer [.tensor dims none, .scalar 0 .int64, .scalar (-1) .int64] := by
  constructor
  · have h := Rule.infer_reshape_collapse (ValueInfo.asTensor_tensor [2, 3, 4] (some .float))
    obtain ⟨y, hy, hagain, hfurther⟩ := h.1 (by decide) _ _ _ (ValueInfo.asInts_intList [-1, 6]) rfl
    obtain rfl := List.singleton_inj.1 hy
    exact ⟨hagain, hfurther (by decide) (.intList [-1, 3])⟩
  · intro dims hdims
    have hr : (dims.length : Int) ≤ Word.greatest := by
      revert dims
      decide
    exact (Rule.infer_reshape_collapse (ValueInfo.asTensor_tensor dims none)).2 hr _ _ _
      (ValueInfo.asInt_scalar 0 .int64) (ValueInfo.asInt_scalar (-1) .int64)
      (ValueInfo.asInts_intList [-1])

end ShapeFlow
