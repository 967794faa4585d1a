import ShapeFlow.Proofs.Rule.Order
import Mathlib.Data.List.Nodup

/-! Permutations one after the other. A permuted tensor has at each axis the size at the axis that the list
    names there. So permuting it again picks from the first list what the second one names, and
    picking is associative. A list of all axes has an inverse, which has for each axis the place of
    that axis in the list; picked from one another the two give the axes in their order, and
    permuting by the inverse brings the tensor back. -/

namespace ShapeFlow

namespace AxisOrder

/-- The axes of a tensor, in their order. -/
def axes (rank : Nat) : List Int := (List.range rank).map (↑)

/-- The items at the axes of a list, in its order. -/
def pick (items order : List Int) : List Int := order.map fun axis => items.getD axis.toNat 0

/-- For each axis, its place in a list of axes. -/
def inverse (order : List Int) : List Int :=
  (List.range order.length).map fun i : Nat => (order.idxOf (i : Int) : Int)

theorem length_axes (rank : Nat) : (axes rank).length = rank := by simp [axes]

theorem mem_axes_iff {rank : Nat} {axis : Int} : axis ∈ axes rank ↔ 0 ≤ axis ∧ axis < rank := by
  simp only [axes, List.mem_map, List.mem_range]
  constructor
  · rintro ⟨i, hi, rfl⟩
    omega
  · rintro ⟨hnonneg, hlt⟩
    exact ⟨axis.toNat, by omega, Int.toNat_of_nonneg hnonneg⟩

theorem nodup_axes (rank : Nat) : (axes rank).Nodup :=
  List.nodup_range.map fun _ _ h => Int.ofNat_inj.1 h

/-- The lists that name every axis once are the positions of all axes, in some order. -/
theorem perm_axes_iff {order : List Int} {rank : Nat} :
    order.Perm (axes rank) ↔
      ∃ positions : List Nat, order = positions.map (↑) ∧ positions.Perm (List.range rank) := by
  constructor
  · intro h
    refine ⟨order.map Int.toNat, ?_, ?_⟩
    · have hsame : ∀ axis ∈ order, ((axis.toNat : Nat) : Int) = axis :=
        fun axis ha => Int.toNat_of_nonneg (mem_axes_iff.1 (h.mem_iff.1 ha)).1
      rw [List.map_map]
      exact ((List.map_congr_left hsame).trans (List.map_id' order)).symm
    · have hrange : (axes rank).map Int.toNat = List.range rank := by simp [axes, Function.comp_def]
      exact hrange ▸ h.map Int.toNat
  · rintro ⟨positions, rfl, h⟩
    exact h.map _

/-! ### Picking -/

theorem length_pick (items order : List Int) : (pick items order).length = order.length :=
  List.length_map _

/-- In their order the axes pick all items. -/
theorem pick_axes (items : List Int) : pick items (axes items.length) = items := by
  simp only [pick, axes, List.map_map, Function.comp_def, Int.toNat_natCast]
  exact Dims.map_getD_range items

theorem getElem?_pick {items order : List Int} (hin : ∀ axis ∈ order, axis.toNat < items.length)
    (i : Nat) : (pick items order)[i]? = order[i]?.bind fun axis => items[axis.toNat]? := by
  rw [pick, List.getElem?_map]
  cases hi : order[i]? with
  | none => rfl
  | some axis =>
    have hlt := hin axis (List.mem_of_getElem? hi)
    simp [hlt]

section Orders

variable {order next : List Int} {rank : Nat} (h : order.Perm (axes rank))
include h

theorem length_of_perm_axes : order.length = rank := h.length_eq.trans (length_axes rank)

theorem toNat_lt_of_mem {axis : Int} (ha : axis ∈ order) : axis.toNat < rank := by
  obtain ⟨hnonneg, hlt⟩ := mem_axes_iff.1 (h.mem_iff.1 ha)
  omega

/-- Picking from what was picked is picking by what is picked from the list. -/
theorem pick_pick (hn : next.Perm (axes rank)) (items : List Int) :
    pick (pick items order) next = pick items (pick order next) := by
  simp only [pick, List.map_map]
  refine List.map_congr_left fun axis ha => ?_
  have hlt : axis.toNat < order.length := length_of_perm_axes h ▸ toNat_lt_of_mem hn ha
  simp [hlt]

/-- What is picked by a list of all axes is a rearrangement of the items. -/
theorem pick_perm {items : List Int} (hi : items.length = rank) : (pick items order).Perm items := by
  subst hi
  exact (h.map _).trans (.of_eq (pick_axes items))

/-- From a list of all axes, the inverse picks them in their order. -/
theorem pick_inverse : pick order (inverse order) = axes rank := by
  rw [pick, inverse, axes, List.map_map, length_of_perm_axes h]
  refine List.map_congr_left fun i hi => ?_
  have hmem : (i : Int) ∈ order := h.mem_iff.2 (List.mem_map_of_mem hi)
  simp [List.idxOf_lt_length_iff.2 hmem]

/-- From the inverse, a list of all axes picks them in their order. -/
theorem inverse_pick : pick (inverse order) order = axes rank := by
  have hlength := length_of_perm_axes h
  have hnodup : order.Nodup := h.nodup_iff.2 (nodup_axes rank)
  refine List.ext_getElem (by rw [length_pick, hlength, length_axes]) fun k hk _ => ?_
  rw [length_pick] at hk
  obtain ⟨hnonneg, hlt⟩ := mem_axes_iff.1 (h.mem_iff.1 (List.getElem_mem hk))
  have hplace : order.idxOf order[k] = k := hnodup.idxOf_getElem k hk
  simpa [pick, inverse, axes, hlength, hnonneg, toNat_lt_of_mem h (List.getElem_mem hk)] using hplace

/-- A list of all axes picked from another one is a list of all axes. -/
theorem pick_perm_axes (hn : next.Perm (axes rank)) : (pick order next).Perm (axes rank) :=
  (pick_perm hn (length_of_perm_axes h)).trans h

/-- The inverse is a list of all axes too. -/
theorem inverse_perm : (inverse order).Perm (axes rank) := by
  have hlength : (inverse order).length = rank := by
    simp [inverse, length_of_perm_axes h]
  exact .trans (pick_perm h hlength).symm (.of_eq (inverse_pick h))

end Orders

/-! ### Permuting -/

variable {x order : ValueInfo} {dims : Dims} {perm : List Int}

/-- Permuting takes the lists that name every axis once, and picks the sizes by them. -/
theorem permute_pick_iff (hx : x.asTensor = .ok dims) (hp : order.asInts = .ok perm)
    {made : List ValueInfo} :
    permute [x, order] = .ok made ↔
      perm.Perm (axes dims.length) ∧ made = [.tensor (pick dims perm) x.elem] := by
  rw [permute_ok_iff hx hp, perm_axes_iff]
  constructor
  · rintro ⟨positions, rfl, hrange, rfl⟩
    exact ⟨⟨positions, rfl, hrange⟩, by simp [pick, Function.comp_def]⟩
  · rintro ⟨⟨positions, rfl, hrange⟩, rfl⟩
    exact ⟨positions, rfl, hrange, by simp [pick, Function.comp_def]⟩

end AxisOrder

open AxisOrder in
/-- PERMUTE: a tensor is permuted by the lists that name each of its axes once, and by no other list. Each
    axis of the result has the size of the axis that the list names there, so the sizes are those of
    the tensor in another order. Permuting the result again is permuting by one list, which has at
    each axis what the first list has at the axis that the second one names. By the inverse, which
    undoes the list from both sides, the result is permuted to the tensor there was, with its type. -/
theorem Rule.infer_permute_composed {x order : ValueInfo} {dims : Dims} {p : List Int}
    (hx : x.asTensor = .ok dims) (hp : order.asInts = .ok p) :
    ((∃ made, Rule.permute.infer [x, order] = .ok made) ↔ p.Perm (axes dims.length)) ∧
    ∀ made, Rule.permute.infer [x, order] = .ok made →
      (∃ sizes : Dims, made = [.tensor sizes x.elem] ∧ sizes.Perm dims ∧
        ∀ i : Nat, sizes[i]? = p[i]?.bind fun axis => dims[axis.toNat]?) ∧
      (∀ (next composed : ValueInfo) (q : List Int), next.asInts = .ok q →
        q.Perm (axes dims.length) → composed.asInts = .ok (pick p q) →
        (∀ i : Nat, (pick p q)[i]? = q[i]?.bind fun axis => p[axis.toNat]?) ∧
        ∃ again, Rule.permute.infer (made ++ [next]) = .ok again ∧
          Rule.permute.infer [x, composed] = .ok again) ∧
      (pick p (inverse p) = axes dims.length ∧ pick (inverse p) p = axes dims.length ∧
        ∀ back : ValueInfo, back.asInts = .ok (inverse p) →
          Rule.permute.infer (made ++ [back]) = .ok [.tensor dims x.elem]) := by
  have hok (made : List ValueInfo) := @permute_pick_iff x order dims p hx hp made
  refine ⟨⟨fun ⟨made, h⟩ => ((hok made).1 h).1, fun h => ⟨_, (hok _).2 ⟨h, rfl⟩⟩⟩, fun made h => ?_⟩
  obtain ⟨hperm, rfl⟩ := (hok made).1 h
  have hlength : p.length = dims.length := length_of_perm_axes hperm
  have hsizes : (ValueInfo.tensor (pick dims p) x.elem).asTensor = .ok (pick dims p) := rfl
  have hrank : (pick dims p).length = dims.length := (length_pick dims p).trans hlength
  refine ⟨⟨_, rfl, pick_perm hperm rfl, ?_⟩, fun next composed q hq hall hc => ⟨?_, ?_⟩, ?_⟩
  · exact getElem?_pick fun axis ha => toNat_lt_of_mem hperm ha
  · exact getElem?_pick fun axis ha => hlength ▸ toNat_lt_of_mem hall ha
  · refine ⟨_, (permute_pick_iff hsizes hq).2 ⟨hrank ▸ hall, rfl⟩, ?_⟩
    refine (permute_pick_iff hx hc).2 ⟨pick_perm_axes hperm hall, ?_⟩
    rw [pick_pick hperm hall]
    rfl
  · have hinverse := inverse_perm hperm
    refine ⟨pick_inverse hperm, inverse_pick hperm, fun back hb => ?_⟩
    refine (permute_pick_iff hsizes hb).2 ⟨hrank ▸ hinverse, ?_⟩
    rw [pick_pick hperm hinverse, pick_inverse hperm, pick_axes]
    rfl

/-- Four axes turned round by one, turned once more, and turned back. -/
theorem Rule.infer_permute_composed_turned :
    (Rule.permute.infer [.tensor [2, 3, 4, 5] (some .float), .intList [1, 2, 3, 0]]
        = .ok [.tensor [3, 4, 5, 2] (some .float)] ∧
      Rule.permute.infer [.tensor [3, 4, 5, 2] (some .float), .intList [1, 2, 3, 0]]
        = Rule.permute.infer [.tensor [2, 3, 4, 5] (some .float), .intList [2, 3, 0, 1]] ∧
      Rule.permute.infer [.tensor [3, 4, 5, 2] (some .float), .intList [3, 0, 1, 2]]
        = .ok [.tensor [2, 3, 4, 5] (some .float)]) ∧
    ¬ ∃ made, Rule.permute.infer [.tensor [2, 3, 4, 5] (some .float), .intList [1, 2, -1, 0]]
      = .ok made := by
  have hread := ValueInfo.asTensor_tensor [2, 3, 4, 5] (some .float)
  constructor
  · have hmade : Rule.permute.infer [.tensor [2, 3, 4, 5] (some .float), .intList [1, 2, 3, 0]]
        = .ok [.tensor [3, 4, 5, 2] (some .float)] := rfl
    obtain ⟨-, htwice, -, -, hback⟩ :=
      (Rule.infer_permute_composed hread (ValueInfo.asInts_intList [1, 2, 3, 0])).2 _ hmade
    obtain ⟨-, again, hagain, hcomposed⟩ :=
      htwice (.intList [1, 2, 3, 0]) (.intList [2, 3, 0, 1]) _ rfl (by decide) rfl
    exact ⟨hmade, hagain.trans hcomposed.symm, hback (.intList [3, 0, 1, 2]) rfl⟩
  · rw [(Rule.infer_permute_composed hread (ValueInfo.asInts_intList [1, 2, -1, 0])).1]
    decide

end ShapeFlow
