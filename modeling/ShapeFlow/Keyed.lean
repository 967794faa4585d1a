/-! Values under names, in the order in which the names first came. Setting a name that is there
    replaces its value where it stands, so names never repeat and a later setting never moves an
    earlier name. -/

namespace ShapeFlow

/-- Named values in order of first setting. -/
structure Keyed (α : Type) where
  entries : List (String × α)
  deriving BEq, Repr

namespace Keyed

variable {α : Type}

/-- Nothing set. -/
def empty : Keyed α := ⟨[]⟩

/-- Replaces the value of a name in place, or adds the name at the end. -/
def setIn (name : String) (value : α) : List (String × α) → List (String × α)
  | [] => [(name, value)]
  | (key, old) :: rest =>
    if key = name then (name, value) :: rest else (key, old) :: setIn name value rest

/-- Sets a name. -/
def set (k : Keyed α) (name : String) (value : α) : Keyed α := ⟨setIn name value k.entries⟩

/-- The value of the first entry with a name. -/
def findIn (name : String) : List (String × α) → Option α
  | [] => none
  | (key, value) :: rest => if key = name then some value else findIn name rest

/-- The value of a name. -/
def get? (k : Keyed α) (name : String) : Option α := findIn name k.entries

/-- The names, in order. -/
def names (k : Keyed α) : List String := k.entries.map (·.1)

def size (k : Keyed α) : Nat := k.entries.length

def isEmpty (k : Keyed α) : Bool := k.entries.isEmpty

/-- Sets each pair in turn. -/
def setAll (k : Keyed α) (pairs : List (String × α)) : Keyed α :=
  pairs.foldl (fun acc p => acc.set p.1 p.2) k

@[simp] theorem get?_empty (name : String) : (empty : Keyed α).get? name = none := rfl

theorem findIn_setIn (name other : String) (value : α) (entries : List (String × α)) :
    findIn other (setIn name value entries)
      = if name = other then some value else findIn other entries := by
  induction entries with
  | nil => rfl
  | cons p rest ih =>
    obtain ⟨key, old⟩ := p
    by_cases hk : key = name
    · subst hk
      by_cases h : key = other <;> simp [setIn, findIn, h]
    · by_cases ho : key = other
      · subst ho
        have hn : ¬ name = key := fun h => hk h.symm
        simp [setIn, findIn, hk, hn]
      · simp [setIn, findIn, hk, ho, ih]

/-- A setting is seen under its own name and under no other. -/
theorem get?_set (k : Keyed α) (name other : String) (value : α) :
    (k.set name value).get? other = if name = other then some value else k.get? other :=
  findIn_setIn name other value k.entries

theorem map_setIn (name : String) (value : α) (entries : List (String × α)) :
    (setIn name value entries).map (·.1)
      = if name ∈ entries.map (·.1) then entries.map (·.1) else entries.map (·.1) ++ [name] := by
  induction entries with
  | nil => simp [setIn]
  | cons p rest ih =>
    obtain ⟨key, old⟩ := p
    by_cases hk : key = name
    · subst hk; simp [setIn]
    · have hk' : ¬ name = key := fun h => hk h.symm
      by_cases hm : name ∈ rest.map (·.1)
      · simp only [setIn, hk, if_false, List.map_cons, ih, hm, if_true, List.mem_cons, or_true]
      · simp only [setIn, hk, if_false, List.map_cons, ih, hm, List.mem_cons, hk', or_false,
          List.cons_append]

/-- A new name goes last; a known one keeps its place. -/
theorem names_set (k : Keyed α) (name : String) (value : α) :
    (k.set name value).names = if name ∈ k.names then k.names else k.names ++ [name] :=
  map_setIn name value k.entries

end Keyed

end ShapeFlow
