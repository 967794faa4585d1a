import ShapeFlow.Dims.Broadcast
import ShapeFlow.Proofs.Bracketing
import Mathlib.Data.List.Perm.Basic

/-! Broadcasting as expansion. A shape expands to the shapes that have each of its dims, counted from the
    last, in the same size or in any size at all where its own is 1. That is an order on shapes, and
    two shapes broadcast to the least one that both expand to: a shape is above the result exactly
    if it is above both operands. Joining a whole row keeps to this law whatever the brackets are, so
    a row comes to the least shape that all of its members expand to, or to nothing if there is none;
    and what is above all of a row does not depend on its order. -/

namespace ShapeFlow

namespace Dims

/-- The shape expands to the other one: it has no more dims, and each of them, counted from the last,
    has size 1 or the size that the other shape has there. -/
structure Expands (s t : Dims) : Prop where
  rank : s.length ≤ t.length
  size : ∀ (i : Nat) (a : Int), s.reverse[i]? = some a → a = 1 ∨ t.reverse[i]? = some a

namespace Expands

variable {s t u : Dims} {a b : Int}

@[refl] theorem refl (s : Dims) : s.Expands s := ⟨Nat.le_refl _, fun _ _ => .inr⟩

theorem trans (hst : s.Expands t) (htu : t.Expands u) : s.Expands u where
  rank := Nat.le_trans hst.rank htu.rank
  size i a h := (hst.size i a h).elim .inl (htu.size i a)

/-- Shapes that expand to each other are the same. -/
theorem antisymm (hst : s.Expands t) (hts : t.Expands s) : s = t := by
  have hlength : s.length = t.length := Nat.le_antisymm hst.rank hts.rank
  refine List.reverse_injective (List.ext_getElem (by simpa using hlength) fun i hi hj => ?_)
  have ha := List.getElem?_eq_getElem hi
  have hb := List.getElem?_eq_getElem hj
  rcases hst.size i _ ha with hone | hsame
  · rcases hts.size i _ hb with hone' | hsame'
    · rw [hone, hone']
    · exact Option.some.inj (ha.symm.trans hsame')
  · exact Option.some.inj (hsame.symm.trans hb)

@[simp] theorem nil (t : Dims) : Expands [] t := ⟨Nat.zero_le _, by simp⟩

@[simp] theorem not_concat_nil (s : Dims) (a : Int) : ¬ Expands (s ++ [a]) [] :=
  fun h => by simpa using h.rank

/-- Shapes are compared from the last dim on. -/
@[simp] theorem concat_iff : Expands (s ++ [a]) (t ++ [b]) ↔ (a = 1 ∨ a = b) ∧ s.Expands t := by
  constructor
  · intro h
    refine ⟨by simpa [eq_comm] using h.size 0 a (by simp), by simpa using h.rank, fun i c hc => ?_⟩
    simpa using h.size (i + 1) c (by simpa using hc)
  · rintro ⟨hlast, h⟩
    refine ⟨by simpa using h.rank, fun i c hc => ?_⟩
    cases i with
    | zero => simp_all [eq_comm]
    | succ i => simpa using h.size i c (by simpa using hc)

/-- A single size expands to the shapes that end in it, or in any size if it is 1. -/
theorem single_iff : Expands [a] t ↔ ∃ b, t.getLast? = some b ∧ (a = 1 ∨ a = b) := by
  rcases t.eq_nil_or_concat' with rfl | ⟨t, b, rfl⟩
  · simpa using not_concat_nil [] a
  · rw [← List.nil_append [a], concat_iff]
    simp

end Expands

end Dims

namespace Broadcast

/-! ### Two sizes -/

variable {a b c d : Int}

/-- A size is above the one that two sizes come to if it is above both. -/
theorem above_size? (h : size? a b = some c) :
    (c = 1 ∨ c = d) ↔ (a = 1 ∨ a = d) ∧ (b = 1 ∨ b = d) := by
  unfold size? at h
  grind

/-- Two sizes with one above them come to one. -/
theorem exists_size? (ha : a = 1 ∨ a = d) (hb : b = 1 ∨ b = d) : ∃ c, size? a b = some c := by
  rw [← Option.isSome_iff_exists, size?]
  grind

/-! ### Two shapes -/

variable {lhs rhs as bs cs : Dims}

theorem overlay_cons_ok_iff :
    overlay lhs rhs (a :: as) (b :: bs) = .ok cs ↔
      ∃ c rest, size? a b = some c ∧ overlay lhs rhs as bs = .ok rest ∧ cs = c :: rest := by
  rw [overlay]
  cases size? a b with
  | none => simp [refuse]
  | some c =>
    rw [Outcome.bind_ok_iff]
    simp [pure, Except.pure, eq_comm]

/-- A shape is above the one that two shapes come to if it is above both. -/
theorem above_overlay (h : overlay lhs rhs as bs = .ok cs) (u : Dims) :
    Dims.Expands cs.reverse u ↔ Dims.Expands as.reverse u ∧ Dims.Expands bs.reverse u := by
  induction as generalizing bs cs u with
  | nil =>
    cases h
    simp
  | cons a as ih =>
    cases bs with
    | nil =>
      cases h
      simp
    | cons b bs =>
      obtain ⟨c, rest, hc, hrest, rfl⟩ := overlay_cons_ok_iff.1 h
      simp only [List.reverse_cons]
      rcases u.eq_nil_or_concat' with rfl | ⟨u, d, rfl⟩
      · simp
      · simp only [Dims.Expands.concat_iff, ih hrest u, above_size? hc]
        tauto

/-- Two shapes with one above them come to one. -/
theorem exists_overlay (lhs rhs : Dims) {u : Dims} (ha : Dims.Expands as.reverse u)
    (hb : Dims.Expands bs.reverse u) : ∃ cs, overlay lhs rhs as bs = .ok cs := by
  induction as generalizing bs u with
  | nil => exact ⟨bs, rfl⟩
  | cons a as ih =>
    cases bs with
    | nil => exact ⟨a :: as, rfl⟩
    | cons b bs =>
      rw [List.reverse_cons] at ha hb
      rcases u.eq_nil_or_concat' with rfl | ⟨u, d, rfl⟩
      · exact absurd ha (Dims.Expands.not_concat_nil _ _)
      · rw [Dims.Expands.concat_iff] at ha hb
        obtain ⟨c, hc⟩ := exists_size? ha.1 hb.1
        obtain ⟨rest, hrest⟩ := ih ha.2 hb.2
        exact ⟨_, overlay_cons_ok_iff.2 ⟨c, rest, hc, hrest, rfl⟩⟩

/-- Shapes that do not go together are refused for two sizes of theirs. -/
theorem overlay_error {halt : Halt} (h : overlay lhs rhs as bs = .error halt) :
    ∃ a b dim, halt = .refused (.incompatibleShapes (.sizes lhs rhs a b dim)) := by
  induction as generalizing bs with
  | nil => cases h
  | cons a as ih =>
    cases bs with
    | nil => cases h
    | cons b bs =>
      rw [overlay] at h
      split at h
      · rcases Outcome.bind_error_iff.1 h with hrest | ⟨rest, -, hdone⟩
        · exact ih hrest
        · cases hdone
      · cases h
        exact ⟨_, _, _, rfl⟩

variable {s t u : Dims}

theorem shapes_ok_overlay (h : shapes s t = .ok u) : overlay s t s.reverse t.reverse = .ok u.reverse := by
  obtain ⟨cs, hcs, hu⟩ := Outcome.bind_ok_iff.1 h
  cases hu
  rwa [List.reverse_reverse]

theorem above_shapes (h : shapes s t = .ok u) (v : Dims) :
    u.Expands v ↔ s.Expands v ∧ t.Expands v := by
  simpa using above_overlay (shapes_ok_overlay h) v

theorem exists_shapes {v : Dims} (hs : s.Expands v) (ht : t.Expands v) : ∃ u, shapes s t = .ok u := by
  rw [← s.reverse_reverse] at hs
  rw [← t.reverse_reverse] at ht
  obtain ⟨cs, hcs⟩ := exists_overlay s t hs ht
  rw [shapes, hcs]
  exact ⟨_, rfl⟩

theorem shapes_error {halt : Halt} (h : shapes s t = .error halt) :
    ∃ a b dim, halt = .refused (.incompatibleShapes (.sizes s t a b dim)) := by
  rcases Outcome.bind_error_iff.1 h with hcs | ⟨cs, -, hdone⟩
  · exact overlay_error hcs
  · cases hdone

/-- A shape stays as it is exactly under those that expand to it. -/
theorem shapes_eq_left_iff : shapes s t = .ok s ↔ t.Expands s := by
  constructor
  · exact fun h => ((above_shapes h s).1 (.refl s)).2
  · intro ht
    obtain ⟨u, hu⟩ := exists_shapes (.refl s) ht
    have hle : u.Expands s := (above_shapes hu s).2 ⟨.refl s, ht⟩
    have hge : s.Expands u := ((above_shapes hu u).1 (.refl u)).1
    rwa [hle.antisymm hge] at hu

/-! ### Rows of shapes -/

variable {row other : Bracketing Dims}

/-- A shape is above the one that a row comes to if it is above all of the row. -/
theorem above_fold (h : row.fold shapes = .ok t) (u : Dims) :
    t.Expands u ↔ ∀ s ∈ row.items, s.Expands u := by
  induction row generalizing t with
  | single s =>
    cases h
    simp [Bracketing.items]
  | pair front back ihFront ihBack =>
    obtain ⟨a, b, ha, hb, hab⟩ := Bracketing.fold_pair_ok_iff.1 h
    rw [above_shapes hab, ihFront ha, ihBack hb, Bracketing.items, List.forall_mem_append]

/-- A row with a shape above all of it comes to one. -/
theorem exists_fold (h : ∀ s ∈ row.items, s.Expands u) : ∃ t, row.fold shapes = .ok t := by
  induction row with
  | single s => exact ⟨s, rfl⟩
  | pair front back ihFront ihBack =>
    rw [Bracketing.items, List.forall_mem_append] at h
    obtain ⟨a, ha⟩ := ihFront h.1
    obtain ⟨b, hb⟩ := ihBack h.2
    obtain ⟨t, ht⟩ := exists_shapes ((above_fold ha u).2 h.1) ((above_fold hb u).2 h.2)
    exact ⟨t, Bracketing.fold_pair_ok_iff.2 ⟨a, b, ha, hb, ht⟩⟩

/-- Rows of the same shapes come to the same, in any order and with any brackets. -/
theorem fold_ok_of_perm (hperm : row.items.Perm other.items) (h : row.fold shapes = .ok t) :
    other.fold shapes = .ok t := by
  have habove (u : Dims) : t.Expands u ↔ ∀ s ∈ other.items, s.Expands u := by
    simp only [above_fold h u, hperm.mem_iff]
  obtain ⟨t', ht'⟩ := exists_fold ((habove t).1 (.refl t))
  have hle : t.Expands t' := (habove t').2 ((above_fold ht' t').1 (.refl t'))
  have hge : t'.Expands t := (above_fold ht' t).2 ((habove t).1 (.refl t))
  rwa [hle.antisymm hge]

theorem fold_error {halt : Halt} (h : row.fold shapes = .error halt) :
    ∃ cause, halt = .refused (.incompatibleShapes cause) := by
  obtain ⟨s, t, hst⟩ := Bracketing.exists_of_fold_error h
  obtain ⟨a, b, dim, hhalt⟩ := shapes_error hst
  exact ⟨_, hhalt⟩

/-- EXPANSION: two shapes broadcast if there is a shape that both expand to, and then to the least such
    shape. So the shapes of a row broadcast to one and the same shape in every order and with all
    brackets, or are refused as incompatible in every order and with all of them. -/
theorem shapes_least_expansion :
    (∀ a b : Dims,
      ((∃ t, shapes a b = .ok t) ↔ ∃ t : Dims, a.Expands t ∧ b.Expands t) ∧
      ∀ t, shapes a b = .ok t →
        a.Expands t ∧ b.Expands t ∧ ∀ u : Dims, a.Expands u → b.Expands u → t.Expands u) ∧
    ∀ row other : Bracketing Dims, row.items.Perm other.items →
      (∃ t, row.fold shapes = .ok t ∧ other.fold shapes = .ok t) ∨
      ∃ cause cause', row.fold shapes = refuse (.incompatibleShapes cause) ∧
        other.fold shapes = refuse (.incompatibleShapes cause') := by
  refine ⟨fun a b => ⟨⟨?_, ?_⟩, ?_⟩, fun row other hperm => ?_⟩
  · rintro ⟨t, h⟩
    exact ⟨t, (above_shapes h t).1 (.refl t)⟩
  · rintro ⟨t, ha, hb⟩
    exact exists_shapes ha hb
  · intro t h
    obtain ⟨ha, hb⟩ := (above_shapes h t).1 (.refl t)
    exact ⟨ha, hb, fun u hau hbu => (above_shapes h u).2 ⟨hau, hbu⟩⟩
  · cases hrow : row.fold shapes with
    | ok t => exact .inl ⟨t, rfl, fold_ok_of_perm hperm hrow⟩
    | error halt =>
      cases hother : other.fold shapes with
      | ok t =>
        rw [fold_ok_of_perm hperm.symm hother] at hrow
        cases hrow
      | error halt' =>
        obtain ⟨cause, rfl⟩ := fold_error hrow
        obtain ⟨cause', rfl⟩ := fold_error hother
        exact .inr ⟨cause, cause', rfl, rfl⟩

/-- A row and a column, two shapes that no shape is above, and three shapes in two orders. -/
theorem shapes_least_expansion_crossed :
    (shapes [1, 4] [3, 1] = .ok [3, 4] ∧
      ∀ u : Dims, Dims.Expands [1, 4] u → Dims.Expands [3, 1] u → Dims.Expands [3, 4] u) ∧
    (¬ ∃ t : Dims, Dims.Expands [2, 4] t ∧ Dims.Expands [3, 4] t) ∧
    (Bracketing.pair (.pair (.single [4]) (.single [3, 1])) (.single [2, 1, 1])).fold shapes
      = .ok [2, 3, 4] ∧
    (Bracketing.pair (.single [2, 1, 1]) (.pair (.single [4]) (.single [3, 1]))).fold shapes
      = .ok [2, 3, 4] := by
  obtain ⟨htwo, hrow⟩ := shapes_least_expansion
  refine ⟨⟨rfl, (((htwo [1, 4] [3, 1]).2 _ rfl).2).2⟩, fun h => ?_, rfl, ?_⟩
  · obtain ⟨t, ht⟩ := (htwo [2, 4] [3, 4]).1.2 h
    cases ht
  · obtain ⟨t, ht, ht'⟩ | ⟨_, _, hbad, -⟩ := hrow
      (.pair (.pair (.single [4]) (.single [3, 1])) (.single [2, 1, 1]))
      (.pair (.single [2, 1, 1]) (.pair (.single [4]) (.single [3, 1]))) (by decide)
    · cases ht
      exact ht'
    · cases hbad

end Broadcast

end ShapeFlow
