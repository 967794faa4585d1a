import ShapeFlow.Proofs.Outcome
import Mathlib.Data.List.Chain

/-! Brackets around a row of items. An operation on two items joins a whole row once brackets say which
    two come next, and the row is lost as soon as two of them do not go together. So what a row comes
    to is a fold over a binary tree with the items at its leaves. Where the two halves of a row meet,
    the last item of the one stands in front of the first item of the other. -/

namespace ShapeFlow

/-- A row of one or more items with brackets around every two neighbours that are joined. -/
inductive Bracketing (α : Type) where
  | single (item : α)
  | pair (front back : Bracketing α)

namespace Bracketing

variable {α β : Type}

/-- The items of the row in their order. -/
def items : Bracketing α → List α
  | single item => [item]
  | pair front back => front.items ++ back.items

/-- The item that the row begins with. -/
def first : Bracketing α → α
  | single item => item
  | pair front _ => front.first

/-- The item that the row ends in. -/
def last : Bracketing α → α
  | single item => item
  | pair _ back => back.last

/-- The row with another item in the place of each one. -/
def map (f : α → β) : Bracketing α → Bracketing β
  | single item => single (f item)
  | pair front back => pair (front.map f) (back.map f)

/-- Joins the row as the brackets say. -/
def fold (join : α → α → Outcome α) : Bracketing α → Outcome α
  | single item => pure item
  | pair front back => do
    let a ← front.fold join
    let b ← back.fold join
    join a b

@[simp] theorem head?_items (row : Bracketing α) : row.items.head? = some row.first := by
  induction row with
  | single item => rfl
  | pair front back ihFront _ => simp [items, first, ihFront]

@[simp] theorem getLast?_items (row : Bracketing α) : row.items.getLast? = some row.last := by
  induction row with
  | single item => rfl
  | pair front back _ ihBack => simp [items, last, ihBack]

/-- A row is a chain if both halves are and the ends at which they meet go together. -/
theorem isChain_pair_iff {R : α → α → Prop} {front back : Bracketing α} :
    (pair front back).items.IsChain R ↔
      front.items.IsChain R ∧ back.items.IsChain R ∧ R front.last back.first := by
  simp [items, List.isChain_append]

variable {join : α → α → Outcome α} {front back : Bracketing α}

theorem fold_pair_ok_iff {c : α} :
    (pair front back).fold join = .ok c ↔
      ∃ a b, front.fold join = .ok a ∧ back.fold join = .ok b ∧ join a b = .ok c := by
  rw [fold, Outcome.bind_ok_iff]
  constructor
  · rintro ⟨a, ha, h⟩
    obtain ⟨b, hb, hc⟩ := Outcome.bind_ok_iff.1 h
    exact ⟨a, b, ha, hb, hc⟩
  · rintro ⟨a, b, ha, hb, hc⟩
    exact ⟨a, ha, Outcome.bind_ok_iff.2 ⟨b, hb, hc⟩⟩

/-- Items that stand for others and are joined as those are come to what stands for the result. -/
theorem fold_map {f : α → β} {join' : β → β → Outcome β}
    (h : ∀ a b, join' (f a) (f b) = join a b >>= fun c => pure (f c)) (row : Bracketing α) :
    (row.map f).fold join' = row.fold join >>= fun c => pure (f c) := by
  induction row with
  | single item => rfl
  | pair front back ihFront ihBack =>
    simp only [map, fold, ihFront, ihBack, bind_assoc, pure_bind, h]

/-- A row that does not join is lost at two items that do not. -/
theorem exists_of_fold_error {row : Bracketing α} {halt : Halt} (h : row.fold join = .error halt) :
    ∃ a b, join a b = .error halt := by
  induction row with
  | single item => cases h
  | pair front back ihFront ihBack =>
    rw [fold] at h
    rcases Outcome.bind_error_iff.1 h with hfront | ⟨a, -, h⟩
    · exact ihFront hfront
    · rcases Outcome.bind_error_iff.1 h with hback | ⟨b, -, hjoin⟩
      · exact ihBack hback
      · exact ⟨a, b, hjoin⟩

/-- A row faults as two items that do not join. -/
theorem faultsOnly_fold {P : Fault → Prop} (h : ∀ a b, FaultsOnly P (join a b))
    (row : Bracketing α) : FaultsOnly P (row.fold join) := by
  intro fault hfault
  obtain ⟨a, b, hjoin⟩ := exists_of_fold_error hfault
  exact h a b fault hjoin

end Bracketing

end ShapeFlow
