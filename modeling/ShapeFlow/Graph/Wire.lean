import ShapeFlow.Fault

/-! Handles of the values of a graph. Wires are numbered from zero in the order in which the graph
    makes them; a number that does not fit a handle is a fault. -/

namespace ShapeFlow

/-- The handle of a value. -/
structure Wire where
  index : Nat
  deriving DecidableEq, Repr

namespace Wire

/-- The number of handles there are. -/
def limit : Nat := 4294967295

/-- The wire with a number. -/
def ofIndex (n : Nat) : Except Fault Wire :=
  if n < limit then pure ⟨n⟩ else throw .wireOverflow

/-- A wire as messages show it. -/
def text (w : Wire) : String := toString w.index

/-- A wire as listings for debugging show it. -/
def debugText (w : Wire) : String := "ValueId(" ++ w.text ++ ")"

/-- Wires are ordered by number. -/
instance : Ord Wire := ⟨fun a b => compare a.index b.index⟩

theorem ofIndex_of_lt {n : Nat} (h : n < limit) : ofIndex n = .ok ⟨n⟩ := if_pos h

theorem ofIndex_of_le {n : Nat} (h : limit ≤ n) : ofIndex n = .error .wireOverflow :=
  if_neg (Nat.not_lt.2 h)

theorem ofIndex_ok_iff {n : Nat} {w : Wire} : ofIndex n = .ok w ↔ n < limit ∧ w = ⟨n⟩ := by
  by_cases h : n < limit
  · rw [ofIndex_of_lt h, Except.ok.injEq, eq_comm, and_iff_right h]
  · simp [ofIndex_of_le (Nat.not_lt.1 h), h]

/-- Numbers that all fit have wires. -/
theorem mapM_ofIndex_of_lt {ns : List Nat} (h : ∀ n ∈ ns, n < limit) :
    ns.mapM ofIndex = .ok (ns.map mk) := by
  induction ns with
  | nil => rfl
  | cons n ns ih =>
    rw [List.mapM_cons, ofIndex_of_lt (h n (.head _)), ih fun m hm => h m (.tail _ hm)]
    rfl

/-- One number that does not fit is enough for a fault. -/
theorem mapM_ofIndex_of_mem {ns : List Nat} {n : Nat} (hn : n ∈ ns) (h : limit ≤ n) :
    ns.mapM ofIndex = .error .wireOverflow := by
  induction ns with
  | nil => cases hn
  | cons m ns ih =>
    rw [List.mapM_cons]
    by_cases hm : limit ≤ m
    · rw [ofIndex_of_le hm]
      rfl
    · rcases List.mem_cons.1 hn with rfl | hn
      · exact absurd h hm
      · rw [ofIndex_of_lt (Nat.lt_of_not_le hm), ih hn]
        rfl

theorem mapM_ofIndex_ok_iff {ns : List Nat} {ws : List Wire} :
    ns.mapM ofIndex = .ok ws ↔ (∀ n ∈ ns, n < limit) ∧ ws = ns.map mk := by
  by_cases h : ∀ n ∈ ns, n < limit
  · rw [mapM_ofIndex_of_lt h, Except.ok.injEq, eq_comm, and_iff_right h]
  · simp only [Classical.not_forall, Nat.not_lt] at h
    obtain ⟨n, hn, hl⟩ := h
    rw [mapM_ofIndex_of_mem hn hl]
    constructor
    · intro he
      cases he
    · intro he
      exact absurd (he.1 n hn) (Nat.not_lt.2 hl)

end Wire

end ShapeFlow
