import ShapeFlow.Graph.Wire
import ShapeFlow.ValueInfo

/-! What a run knows so far of each wire. A wire is filled once: filling it again is a fault, and so
    is reading one that is still empty. The table grows when a wire beyond its end is filled, so how
    large it starts shows only where it starts with more slots than there are wires. -/

namespace ShapeFlow

/-- A slot for each wire by number. -/
structure Table where
  slots : Array (Option ValueInfo)

namespace Table

/-- A table of empty slots. -/
def ofSize (n : Nat) : Table := ⟨Array.replicate n none⟩

/-- What is known of a wire. -/
def get? (t : Table) (w : Wire) : Option ValueInfo := (t.slots[w.index]?).join

/-- Adds empty slots up to a length. -/
def grow (t : Table) (n : Nat) : Table :=
  ⟨t.slots ++ Array.replicate (n - t.slots.size) none⟩

/-- Fills a wire. -/
def insert (t : Table) (w : Wire) (info : ValueInfo) : Except Fault Table :=
  match t.get? w with
  | some _ => throw (.producedTwice w.index)
  | none => pure ⟨(t.grow (w.index + 1)).slots.setIfInBounds w.index (some info)⟩

/-- Fills wires from the left. -/
def insertAll (t : Table) (pairs : List (Wire × ValueInfo)) : Except Fault Table :=
  pairs.foldlM (fun t p => t.insert p.1 p.2) t

/-- What is known of a wire that has to be filled. -/
def read (t : Table) (w : Wire) : Except Fault ValueInfo :=
  match t.get? w with
  | some info => pure info
  | none => throw (.readTooEarly w.index)

/-- Reads wires from the left. -/
def readAll (t : Table) (ws : List Wire) : Except Fault (List ValueInfo) := ws.mapM t.read

/-- The filled slots under their numbers, in order. -/
def known (t : Table) : List (Wire × ValueInfo) :=
  t.slots.toList.zipIdx.filterMap fun (slot, i) => slot.map fun info => (⟨i⟩, info)

/-- The filled wires in order of number. Each slot has to have a wire, filled or not, so a table of more
    slots than there are wires cannot be listed. -/
def entries (t : Table) : Except Fault (List (Wire × ValueInfo)) := do
  let wires ← (List.range t.slots.size).mapM Wire.ofIndex
  pure ((wires.zip t.slots.toList).filterMap fun (w, slot) => slot.map fun info => (w, info))

/-- The number of filled wires. -/
def size (t : Table) : Nat := t.slots.toList.countP Option.isSome

def isEmpty (t : Table) : Bool := t.size == 0

@[simp] theorem get?_ofSize (n : Nat) (w : Wire) : (ofSize n).get? w = none := by
  simp only [get?, ofSize, Array.getElem?_replicate]
  split <;> rfl

@[simp] theorem get?_grow (t : Table) (n : Nat) (w : Wire) : (t.grow n).get? w = t.get? w := by
  simp only [get?, grow, Array.getElem?_append, Array.getElem?_replicate]
  split
  · rfl
  · rename_i h
    rw [Array.getElem?_eq_none (by omega)]
    split <;> rfl

/-- Filling an empty wire changes that wire and no other. -/
theorem get?_insert {t t' : Table} {w : Wire} {info : ValueInfo} (h : t.insert w info = .ok t')
    (v : Wire) : t'.get? v = if w = v then some info else t.get? v := by
  unfold insert at h
  split at h
  · simp [throw, throwThe, MonadExceptOf.throw] at h
  · simp only [pure, Except.pure, Except.ok.injEq] at h
    subst h
    by_cases hv : w = v
    · subst hv
      simp only [get?, if_true]
      rw [Array.getElem?_setIfInBounds_self_of_lt (by simp [grow]; omega)]
      rfl
    · have hi : w.index ≠ v.index := fun e => hv (by cases w; cases v; simp_all)
      have := get?_grow t (w.index + 1) v
      simp only [get?] at this
      simp only [get?, if_neg hv, Array.getElem?_setIfInBounds_ne hi, this]

end Table

end ShapeFlow
