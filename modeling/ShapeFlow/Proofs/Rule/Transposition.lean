import ShapeFlow.Proofs.Rule.Permutation
import Mathlib.Logic.Equiv.Basic

/-! Two axes exchanged. Exchanging the sizes at two positions is picking all sizes by the list of axes in
    which those two have changed places. So a transposition is a permutation, and what holds of
    picking holds of it: it does not matter which of the two axes is named first, and the list
    picked from itself is the list of the axes in their order. A matrix has two axes, so turning it
    is the one transposition that there is. -/

namespace ShapeFlow

namespace AxisOrder

/-- The axes of a tensor, with two of them in each other's place. -/
def exchanged (rank i j : Nat) : List Int :=
  (List.range rank).map fun k : Nat => ((Equiv.swap i j k : Nat) : Int)

variable {rank i j : Nat}

theorem exchanged_comm (rank i j : Nat) : exchanged rank i j = exchanged rank j i := by
  rw [exchanged, exchanged, Equiv.swap_comm]

theorem swap_lt (hi : i < rank) (hj : j < rank) {k : Nat} (hk : k < rank) :
    Equiv.swap i j k < rank := by
  rw [Equiv.swap_apply_def]
  split
  · exact hj
  · split
    · exact hi
    · exact hk

theorem exchanged_perm (hi : i < rank) (hj : j < rank) :
    (exchanged rank i j).Perm (axes rank) := by
  refine perm_axes_iff.2 ⟨(List.range rank).map (Equiv.swap i j), by simp [exchanged], ?_⟩
  refine perm_range_iff.2 ⟨by simp, List.nodup_range.map (Equiv.swap i j).injective, ?_⟩
  refine List.forall_mem_map.2 fun k hk => swap_lt hi hj (List.mem_range.1 hk)

theorem pick_exchanged (items : List Int) (rank i j : Nat) :
    pick items (exchanged rank i j)
      = (List.range rank).map fun k => items.getD (Equiv.swap i j k) 0 := by
  simp [pick, exchanged, Function.comp_def]

/-- Exchanging twice leaves all axes where they are. -/
theorem pick_exchanged_self (hi : i < rank) (hj : j < rank) :
    pick (exchanged rank i j) (exchanged rank i j) = axes rank := by
  rw [pick_exchanged, axes]
  refine List.map_congr_left fun k hk => ?_
  have hlt := swap_lt hi hj (List.mem_range.1 hk)
  simp [exchanged, hlt]

/-- The sizes with two of them exchanged are those at the axes with the two exchanged. -/
theorem exchange_eq_pick {dims : Dims} (hi : i < dims.length) (hj : j < dims.length) :
    Dims.exchange dims i j = .ok (pick dims (exchanged dims.length i j)) := by
  rw [Dims.exchange, Dims.entry_eq_getD hi, Dims.entry_eq_getD hj, Outcome.ok_bind, Outcome.ok_bind,
    Dims.replace_of_lt _ hi, Outcome.ok_bind, Dims.replace_of_lt _ (by rwa [List.length_set])]
  rw [pick_exchanged]
  refine congrArg Except.ok (List.ext_getElem (by simp) fun k hk _ => ?_)
  rw [List.length_set, List.length_set] at hk
  simp only [List.getElem_set, List.getElem_map, List.getElem_range]
  rcases eq_or_ne k i with rfl | hki
  · rw [Equiv.swap_apply_left]
    split
    · next h => rw [h]
    · rw [if_pos rfl]
  · rcases eq_or_ne k j with rfl | hkj
    · rw [Equiv.swap_apply_right, if_pos rfl]
    · rw [Equiv.swap_apply_of_ne_of_ne hki hkj, if_neg hkj.symm, if_neg hki.symm]
      simp [hk]

variable {x first second : ValueInfo} {dims : Dims} {d e : Int}

/-- Exchanging the axes of a tensor, once their numbers are read. -/
theorem transpose_eq (hx : x.asTensor = .ok dims) (hd : first.asInt = .ok d)
    (he : second.asInt = .ok e) :
    transpose [x, first, second] = (do
      let i ← Axis.resolve dims.length d
      let j ← Axis.resolve dims.length e
      pure [.tensor (pick dims (exchanged dims.length i j)) x.elem]) := by
  simp only [transpose, Operands.three, pure_bind, hx, hd, he, Outcome.ok_bind]
  cases hi : Axis.resolve dims.length d with
  | error halt => rfl
  | ok i =>
    cases hj : Axis.resolve dims.length e with
    | error halt => rfl
    | ok j =>
      rw [Outcome.ok_bind, Outcome.ok_bind,
        exchange_eq_pick (Axis.lt_of_resolve hi) (Axis.lt_of_resolve hj)]
      rfl

/-- Two axes are exchanged if their numbers name axes of the tensor. -/
theorem transpose_ok_iff (hx : x.asTensor = .ok dims) (hr : (dims.length : Int) ≤ Word.greatest)
    (hd : first.asInt = .ok d) (he : second.asInt = .ok e) {made : List ValueInfo} :
    transpose [x, first, second] = .ok made ↔
      ∃ i j : Nat, (i < dims.length ∧ (d = i ∨ d = i - dims.length)) ∧
        (j < dims.length ∧ (e = j ∨ e = j - dims.length)) ∧
        made = [.tensor (pick dims (exchanged dims.length i j)) x.elem] := by
  rw [transpose_eq hx hd he]
  simp only [Outcome.bind_ok_iff, Axis.resolve_ok_iff hr]
  constructor
  · rintro ⟨i, hi, j, hj, h⟩
    cases h
    exact ⟨i, j, hi, hj, rfl⟩
  · rintro ⟨i, j, hi, hj, rfl⟩
    exact ⟨i, hi, j, hj, rfl⟩

/-- Two axes exchanged once more are where they were. -/
theorem transpose_again (elem : Option ElemType) (hr : (dims.length : Int) ≤ Word.greatest)
    (hd : first.asInt = .ok d) (he : second.asInt = .ok e)
    (hi : i < dims.length ∧ (d = i ∨ d = i - dims.length))
    (hj : j < dims.length ∧ (e = j ∨ e = j - dims.length)) :
    transpose [.tensor (pick dims (exchanged dims.length i j)) elem, first, second]
      = .ok [.tensor dims elem] := by
  have hperm : (exchanged dims.length i j).Perm (axes dims.length) := exchanged_perm hi.1 hj.1
  have hlength : (pick dims (exchanged dims.length i j)).length = dims.length :=
    (pick_perm hperm rfl).length_eq
  refine (transpose_ok_iff (ValueInfo.asTensor_tensor _ elem) (by rwa [hlength]) hd he).2
    ⟨i, j, by rwa [hlength], by rwa [hlength], ?_⟩
  rw [hlength, pick_pick hperm hperm, pick_exchanged_self hi.1 hj.1, pick_axes]
  rfl

/-- A tensor of at most two axes is turned by taking its sizes from the last one. -/
theorem transpose2d_ok_iff (hx : x.asTensor = .ok dims) {made : List ValueInfo} :
    transpose2d [x] = .ok made ↔ dims.length ≤ 2 ∧ made = [.tensor dims.reverse x.elem] := by
  simp only [transpose2d, Operands.one, pure_bind, hx, Outcome.ok_bind]
  rcases dims with _ | ⟨rows, _ | ⟨cols, _ | ⟨depth, rest⟩⟩⟩
  · simp [pure, Except.pure, eq_comm]
  · simp [pure, Except.pure, eq_comm]
  · simp [pure, Except.pure, eq_comm]
  · simp [refuse]

/-- Turned twice a tensor is as it was. -/
theorem transpose2d_again (hx : x.asTensor = .ok dims) {made : List ValueInfo}
    (h : transpose2d [x] = .ok made) : transpose2d made = .ok [.tensor dims x.elem] := by
  obtain ⟨hle, rfl⟩ := (transpose2d_ok_iff hx).1 h
  refine (transpose2d_ok_iff (ValueInfo.asTensor_tensor _ x.elem)).2 ⟨by simpa using hle, ?_⟩
  rw [List.reverse_reverse]
  rfl

/-- Turning a matrix is exchanging its two axes, and permuting by them. -/
theorem transpose2d_agree {order : ValueInfo} (hx : x.asTensor = .ok dims)
    (hrank : dims.length = 2) (hzero : first.asInt = .ok 0) (hone : second.asInt = .ok 1)
    (ho : order.asInts = .ok [1, 0]) :
    ∃ made, transpose2d [x] = .ok made ∧ transpose [x, first, second] = .ok made ∧
      permute [x, order] = .ok made := by
  obtain ⟨rows, cols, rfl⟩ := List.length_eq_two.1 hrank
  have hr : ((2 : Nat) : Int) ≤ Word.greatest := by decide
  have horder : exchanged 2 0 1 = [1, 0] := by decide
  refine ⟨_, (transpose2d_ok_iff hx).2 ⟨hrank.le, rfl⟩, ?_, ?_⟩
  · refine (transpose_ok_iff hx hr hzero hone).2 ⟨0, 1, by simp, by simp, ?_⟩
    rw [hrank, horder]
    rfl
  · refine (permute_pick_iff hx ho).2 ⟨?_, rfl⟩
    rw [hrank, ← horder]
    exact exchanged_perm (by decide) (by decide)

end AxisOrder

open AxisOrder in
/-- TRANSPOSE: two axes are exchanged if both numbers name axes of the tensor. The result is the same with
    the numbers the other way round, and the same as permuting by the axes with those two in each
    other's place; exchanged once more, it is the tensor there was, with its type. A matrix is turned
    to what exchanging its two axes comes to, and permuting by them. Tensors of at most two axes can
    be turned, and turned twice they are as they were. -/
theorem Rule.infer_transpose_agree {x first second : ValueInfo} {dims : Dims} {d e : Int}
    (hx : x.asTensor = .ok dims) (hr : (dims.length : Int) ≤ Word.greatest)
    (hd : first.asInt = .ok d) (he : second.asInt = .ok e) :
    ((∃ made, Rule.transpose.infer [x, first, second] = .ok made) ↔
      (-dims.length ≤ d ∧ d < dims.length) ∧ (-dims.length ≤ e ∧ e < dims.length)) ∧
    (∀ made, Rule.transpose.infer [x, first, second] = .ok made →
      ∃ i j : Nat, (i < dims.length ∧ (d = i ∨ d = i - dims.length)) ∧
        (j < dims.length ∧ (e = j ∨ e = j - dims.length)) ∧
        Rule.transpose.infer [x, second, first] = .ok made ∧
        (∀ order : ValueInfo, order.asInts = .ok (exchanged dims.length i j) →
          Rule.permute.infer [x, order] = .ok made) ∧
        Rule.transpose.infer (made ++ [first, second]) = .ok [.tensor dims x.elem]) ∧
    (dims.length = 2 → ∀ zero one order : ValueInfo, zero.asInt = .ok 0 → one.asInt = .ok 1 →
      order.asInts = .ok [1, 0] →
      ∃ made, Rule.transpose2d.infer [x] = .ok made ∧
        Rule.transpose.infer [x, zero, one] = .ok made ∧ Rule.permute.infer [x, order] = .ok made) ∧
    ((∃ made, Rule.transpose2d.infer [x] = .ok made) ↔ dims.length ≤ 2) ∧
    ∀ made, Rule.transpose2d.infer [x] = .ok made →
      Rule.transpose2d.infer made = .ok [.tensor dims x.elem] := by
  have hok (made : List ValueInfo) := @transpose_ok_iff x first second dims d e hx hr hd he made
  refine ⟨⟨?_, ?_⟩, fun made h => ?_, fun hrank zero one order hzero hone ho => ?_, ⟨?_, ?_⟩, ?_⟩
  · rintro ⟨made, h⟩
    obtain ⟨i, j, hi, hj, -⟩ := (hok made).1 h
    exact ⟨Axis.exists_position_iff.1 ⟨i, hi⟩, Axis.exists_position_iff.1 ⟨j, hj⟩⟩
  · rintro ⟨hin, hin'⟩
    obtain ⟨i, hi⟩ := Axis.exists_position_iff.2 hin
    obtain ⟨j, hj⟩ := Axis.exists_position_iff.2 hin'
    exact ⟨_, (hok _).2 ⟨i, j, hi, hj, rfl⟩⟩
  · obtain ⟨i, j, hi, hj, rfl⟩ := (hok made).1 h
    have hperm : (exchanged dims.length i j).Perm (axes dims.length) := exchanged_perm hi.1 hj.1
    refine ⟨i, j, hi, hj, ?_, fun order ho => (permute_pick_iff hx ho).2 ⟨hperm, rfl⟩, ?_⟩
    · exact (transpose_ok_iff hx hr he hd).2 ⟨j, i, hj, hi, by rw [exchanged_comm]⟩
    · exact transpose_again x.elem hr hd he hi hj
  · exact transpose2d_agree hx hrank hzero hone ho
  · exact fun ⟨made, h⟩ => ((transpose2d_ok_iff hx).1 h).1
  · exact fun h => ⟨_, (transpose2d_ok_iff hx).2 ⟨h, rfl⟩⟩
  · exact fun made h => transpose2d_again hx h

/-- The outer two of three axes, one of them named from the back, and a matrix. -/
theorem Rule.infer_transpose_agree_outer :
    (Rule.transpose.infer [.tensor [2, 3, 4] (some .float), .scalar 0 .int64, .scalar (-1) .int64]
        = .ok [.tensor [4, 3, 2] (some .float)] ∧
      Rule.transpose.infer [.tensor [2, 3, 4] (some .float), .scalar (-1) .int64, .scalar 0 .int64]
        = .ok [.tensor [4, 3, 2] (some .float)] ∧
      Rule.permute.infer [.tensor [2, 3, 4] (some .float), .intList [2, 1, 0]]
        = .ok [.tensor [4, 3, 2] (some .float)] ∧
      Rule.transpose.infer [.tensor [4, 3, 2] (some .float), .scalar 0 .int64, .scalar (-1) .int64]
        = .ok [.tensor [2, 3, 4] (some .float)]) ∧
    (¬ ∃ made, Rule.transpose.infer [.tensor [2, 3] none, .scalar 2 .int64, .scalar 0 .int64]
      = .ok made) ∧
    ∃ made, Rule.transpose2d.infer [.tensor [2, 3] none] = .ok made ∧
      Rule.transpose.infer [.tensor [2, 3] none, .scalar 0 .int64, .scalar 1 .int64] = .ok made ∧
      Rule.permute.infer [.tensor [2, 3] none, .intList [1, 0]] = .ok made := by
  refine ⟨?_, ?_, ?_⟩
  · have hmade : Rule.transpose.infer [.tensor [2, 3, 4] (some .float), .scalar 0 .int64,
        .scalar (-1) .int64] = .ok [.tensor [4, 3, 2] (some .float)] := rfl
    obtain ⟨i, j, hi, hj, hcomm, hpermute, htwice⟩ := (Rule.infer_transpose_agree
      (ValueInfo.asTensor_tensor [2, 3, 4] (some .float)) (by decide)
      (ValueInfo.asInt_scalar 0 .int64) (ValueInfo.asInt_scalar (-1) .int64)).2.1 _ hmade
    have hplaces : i = 0 ∧ j = 2 := by
      simp only [List.length_cons, List.length_nil] at hi hj
      omega
    obtain ⟨rfl, rfl⟩ := hplaces
    exact ⟨hmade, hcomm, hpermute (.intList [2, 1, 0]) (by decide), htwice⟩
  · rw [(Rule.infer_transpose_agree (ValueInfo.asTensor_tensor [2, 3] none) (by decide)
      (ValueInfo.asInt_scalar 2 .int64) (ValueInfo.asInt_scalar 0 .int64)).1]
    decide
  · exact (Rule.infer_transpose_agree (ValueInfo.asTensor_tensor [2, 3] none) (by decide)
      (ValueInfo.asInt_scalar 2 .int64) (ValueInfo.asInt_scalar 0 .int64)).2.2.1 rfl
      (.scalar 0 .int64) (.scalar 1 .int64) (.intList [1, 0]) rfl rfl rfl

end ShapeFlow
