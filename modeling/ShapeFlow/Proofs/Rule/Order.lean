import ShapeFlow.Proofs.Rule.Words
import Mathlib.Data.List.Perm.Basic

/-! Axes in another order. The axes are gathered one by one, and each of them has to be an axis of the
    tensor that was not there before. A list as long as the rank that passes names every axis once. So
    the sizes that permuting can come to are exactly the rearrangements of the sizes there were. -/

namespace ShapeFlow

theorem Dims.map_getD_range (dims : Dims) :
    (List.range dims.length).map (fun i => dims.getD i 0) = dims := by
  refine List.ext_getElem (by simp) fun i _ hi => ?_
  simp [hi]

namespace AxisOrder

/-- An axis is gathered if it is one of the tensor and was not seen before; it counts as seen from then
    on. -/
theorem gather_cons_ok_iff {dims : Dims} {perm rest : List Int} {axis : Int} {seen : List Nat}
    {sizes : Dims} :
    gather dims perm seen (axis :: rest) = .ok sizes ↔
      ∃ i : Nat, axis = i ∧ (i < dims.length ∧ i ∉ seen) ∧
        ∃ others, gather dims perm (i :: seen) rest = .ok others ∧ sizes = dims.getD i 0 :: others := by
  rw [gather]
  split
  · next hneg =>
    refine iff_of_false (by simp [refuse]) ?_
    rintro ⟨i, rfl, -⟩
    omega
  next hnonneg =>
  obtain ⟨i, rfl⟩ := Int.eq_ofNat_of_zero_le (Int.not_lt.1 hnonneg)
  rw [Int.toNat_natCast]
  split
  · next hbad =>
    refine iff_of_false (by simp [refuse]) ?_
    rintro ⟨j, hj, hgood, -⟩
    obtain rfl := Int.ofNat_inj.1 hj
    exact hbad.elim (Nat.not_le.2 hgood.1) hgood.2
  · next hgood =>
    rw [not_or, Nat.not_le] at hgood
    rw [Dims.entry_eq_getD hgood.1, Outcome.ok_bind, Outcome.bind_ok_iff]
    constructor
    · rintro ⟨others, hothers, h⟩
      cases h
      exact ⟨i, rfl, hgood, others, hothers, rfl⟩
    · rintro ⟨j, hj, -, others, hothers, rfl⟩
      obtain rfl := Int.ofNat_inj.1 hj
      exact ⟨others, hothers, rfl⟩

/-- Gathering goes through for a list of different axes of the tensor that were not seen before. -/
theorem gather_ok_iff {dims : Dims} {perm axes : List Int} {seen : List Nat} {sizes : Dims} :
    gather dims perm seen axes = .ok sizes ↔
      ∃ positions : List Nat, axes = positions.map (↑) ∧ positions.Nodup ∧
        (∀ i ∈ positions, i < dims.length ∧ i ∉ seen) ∧
        sizes = positions.map fun i => dims.getD i 0 := by
  induction axes generalizing seen sizes with
  | nil =>
    constructor
    · intro h
      cases h
      exact ⟨[], rfl, .nil, by simp, rfl⟩
    · rintro ⟨_ | ⟨_, _⟩, haxes, -, -, rfl⟩
      · rfl
      · cases haxes
  | cons axis rest ih =>
    rw [gather_cons_ok_iff]
    constructor
    · rintro ⟨i, rfl, hi, others, hothers, rfl⟩
      obtain ⟨positions, rfl, hnodup, hin, rfl⟩ := ih.1 hothers
      refine ⟨i :: positions, rfl, List.nodup_cons.2 ⟨fun h => ?_, hnodup⟩, ?_, rfl⟩
      · exact (hin i h).2 List.mem_cons_self
      · refine List.forall_mem_cons.2 ⟨hi, fun j hj => ?_⟩
        exact ⟨(hin j hj).1, fun hseen => (hin j hj).2 (List.mem_cons_of_mem _ hseen)⟩
    · rintro ⟨_ | ⟨i, positions⟩, haxes, hnodup, hin, rfl⟩
      · cases haxes
      rw [List.map_cons, List.cons.injEq] at haxes
      obtain ⟨rfl, rfl⟩ := haxes
      rw [List.forall_mem_cons] at hin
      rw [List.nodup_cons] at hnodup
      refine ⟨i, rfl, hin.1, _, ih.2 ⟨positions, rfl, hnodup.2, fun j hj => ?_, rfl⟩, rfl⟩
      refine ⟨(hin.2 j hj).1, fun hseen => ?_⟩
      obtain rfl | hseen := List.mem_cons.1 hseen
      · exact hnodup.1 hj
      · exact (hin.2 j hj).2 hseen

/-- As many different positions as there are name every one of them. -/
theorem perm_range_iff {positions : List Nat} {n : Nat} :
    positions.Perm (List.range n) ↔
      positions.length = n ∧ positions.Nodup ∧ ∀ i ∈ positions, i < n := by
  constructor
  · intro h
    refine ⟨by simpa using h.length_eq, h.nodup_iff.2 List.nodup_range, fun i hi => ?_⟩
    exact List.mem_range.1 (h.mem_iff.1 hi)
  · rintro ⟨hlength, hnodup, hin⟩
    have hsub : positions ⊆ List.range n := fun i hi => List.mem_range.2 (hin i hi)
    exact (List.subperm_of_subset hnodup hsub).perm_of_length_le (by simp [hlength])

variable {x : ValueInfo} {dims : Dims}

/-- Permuting takes the orders of all axes, and puts the sizes into that order. -/
theorem permute_ok_iff {order : ValueInfo} {perm : List Int} (hx : x.asTensor = .ok dims)
    (hp : order.asInts = .ok perm) {made : List ValueInfo} :
    permute [x, order] = .ok made ↔
      ∃ positions : List Nat, perm = positions.map (↑) ∧ positions.Perm (List.range dims.length) ∧
        made = [.tensor (positions.map fun i => dims.getD i 0) x.elem] := by
  simp only [permute, Operands.two, pure_bind, hx, hp, Outcome.ok_bind, perm_range_iff]
  split
  · next hlength =>
    refine iff_of_false (by simp [refuse]) ?_
    rintro ⟨positions, rfl, h, -⟩
    exact hlength (by simpa using h.1)
  · next hlength =>
    rw [ne_eq, not_not] at hlength
    rw [Outcome.bind_ok_iff]
    constructor
    · rintro ⟨sizes, hsizes, h⟩
      obtain ⟨positions, rfl, hnodup, hin, rfl⟩ := gather_ok_iff.1 hsizes
      cases h
      exact ⟨positions, rfl, ⟨by simpa using hlength, hnodup, fun i hi => (hin i hi).1⟩, rfl⟩
    · rintro ⟨positions, rfl, ⟨-, hnodup, hin⟩, rfl⟩
      have hunseen : ∀ i ∈ positions, i < dims.length ∧ i ∉ ([] : List Nat) :=
        fun i hi => ⟨hin i hi, List.not_mem_nil⟩
      exact ⟨_, gather_ok_iff.2 ⟨positions, rfl, hnodup, hunseen, rfl⟩, rfl⟩

/-- Permuting comes to the rearrangements of the sizes, and to each of them. -/
theorem exists_permute_iff (hx : x.asTensor = .ok dims) {made : List ValueInfo} :
    (∃ order, permute [x, order] = .ok made) ↔
      ∃ sizes : Dims, sizes.Perm dims ∧ made = [.tensor sizes x.elem] := by
  constructor
  · rintro ⟨order, h⟩
    have hperm : ∃ perm, order.asInts = .ok perm := by
      simp only [permute, Operands.two, pure_bind, hx, Outcome.ok_bind] at h
      obtain ⟨perm, hp, -⟩ := Outcome.bind_ok_iff.1 h
      exact ⟨perm, hp⟩
    obtain ⟨perm, hp⟩ := hperm
    obtain ⟨positions, -, hrange, rfl⟩ := (permute_ok_iff hx hp).1 h
    exact ⟨_, (hrange.map _).trans (.of_eq dims.map_getD_range), rfl⟩
  · rintro ⟨sizes, hsizes, rfl⟩
    have hread : List.Forall₂ (fun size i => size = dims.getD i 0) dims (List.range dims.length) := by
      rw [← List.forall₂_map_right_iff (f := fun i => dims.getD i 0), List.forall₂_eq_eq_eq]
      exact dims.map_getD_range.symm
    obtain ⟨positions, hpositions, hrange⟩ := List.perm_comp_forall₂ hsizes hread
    rw [← List.forall₂_map_right_iff (f := fun i => dims.getD i 0), List.forall₂_eq_eq_eq] at hpositions
    subst hpositions
    exact ⟨.intList (positions.map (↑)),
      (permute_ok_iff hx (ValueInfo.asInts_intList _)).2 ⟨positions, rfl, hrange, rfl⟩⟩

end AxisOrder

end ShapeFlow
