import ShapeFlow.Word

/-! Reading and changing single sizes. A position outside of the list is a fault, never a default,
    so a rule that finishes has stayed inside its shapes. -/

namespace ShapeFlow.Dims

/-- The size at a position. -/
def entry (dims : Dims) (i : Nat) : Outcome Int :=
  match dims[i]? with
  | some size => pure size
  | none => giveUp (.outOfBounds i dims.length)

/-- Replaces the size at a position. -/
def replace (dims : Dims) (i : Nat) (size : Int) : Outcome Dims :=
  if i < dims.length then pure (dims.set i size) else giveUp (.outOfBounds i dims.length)

/-- Exchanges the sizes at two positions. -/
def exchange (dims : Dims) (i j : Nat) : Outcome Dims := do
  let a ← entry dims i
  let b ← entry dims j
  replace (← replace dims i b) j a

/-- Puts a size in front of position `i`, or last if `i` is the rank. -/
def insertAt (dims : Dims) (i : Nat) (size : Int) : Outcome Dims :=
  if i ≤ dims.length then pure (dims.insertIdx i size) else giveUp (.outOfBounds i dims.length)

/-- The sizes from position `lo` up to, not including, `hi`. -/
def between (dims : Dims) (lo hi : Nat) : Outcome Dims :=
  if lo ≤ hi then
    if hi ≤ dims.length then pure ((dims.take hi).drop lo) else giveUp (.outOfBounds hi dims.length)
  else giveUp (.outOfBounds lo hi)

/-- The product of the sizes, taken from the left, if every product on the way is a word. -/
def count? (dims : Dims) : Option Int := dims.foldlM Word.mul? 1

/-- The number of elements. It is refused when a product on the way is no word. -/
def count (dims : Dims) : Outcome Int :=
  match count? dims with
  | some n => pure n
  | none => refuse (.invalidValue (.tooManyElements dims))

theorem entry_of_lt {dims : Dims} {i : Nat} (h : i < dims.length) :
    entry dims i = .ok dims[i] := by
  simp [entry, h, pure, Except.pure]

theorem replace_of_lt {dims : Dims} {i : Nat} (size : Int) (h : i < dims.length) :
    replace dims i size = .ok (dims.set i size) := if_pos h

theorem insertAt_of_le {dims : Dims} {i : Nat} (size : Int) (h : i ≤ dims.length) :
    insertAt dims i size = .ok (dims.insertIdx i size) := if_pos h

theorem between_of_le {dims : Dims} {lo hi : Nat} (hlo : lo ≤ hi) (hhi : hi ≤ dims.length) :
    between dims lo hi = .ok ((dims.take hi).drop lo) := by
  rw [between, if_pos hlo, if_pos hhi]
  rfl

end ShapeFlow.Dims
