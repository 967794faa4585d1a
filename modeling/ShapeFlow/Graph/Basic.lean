import ShapeFlow.Attribute
import ShapeFlow.Graph.Wire

/-! Dataflow graphs. A graph numbers its values, names some of them, and holds operator nodes in
    the order in which they are to be looked at; a node reads wires and makes wires of its own. A
    node may hold a whole graph in place of constants, which is how a fused operator is written.

    Graphs are built by appending. Every operation that makes wires takes the next free numbers, so
    no two of them ever make the same one; where these run out it faults. -/

namespace ShapeFlow

mutual

/-- What a node does beyond its operator: it has constants, or holds a graph. -/
inductive Body where
  | plain (attrs : Attributes)
  | fused (inner : Graph)

/-- An operator with the wires that it reads and makes. -/
structure Node where
  op : String
  name : Option String
  inputs : List Wire
  outputs : List Wire
  body : Body

/-- Nodes, with the wires that come in from outside and those that are asked for. -/
structure Graph where
  valueNames : List (Option String)
  nodes : List Node
  inputs : List Wire
  outputs : List Wire

end

namespace Graph

/-- Nothing yet. -/
def empty : Graph := ⟨[], [], [], []⟩

/-- The number of values. -/
def valueCount (g : Graph) : Nat := g.valueNames.length

/-- The name of a value, if it has one. -/
def valueName? (g : Graph) (w : Wire) : Option String := (g.valueNames[w.index]?).join

/-- The graph with a value more. -/
def withValue (g : Graph) (name : Option String) : Graph :=
  { g with valueNames := g.valueNames ++ [name] }

/-- The graph with a value more that comes in from outside, on the wire `w`. -/
def withInput (g : Graph) (name : String) (w : Wire) : Graph :=
  { g.withValue (some name) with inputs := g.inputs ++ [w] }

/-- The graph with a node more, which makes values without names on the wires `made`. -/
def withNode (g : Graph) (op : String) (inputs : List Wire) (body : Body) (made : List Wire) :
    Graph :=
  { g with
      valueNames := g.valueNames ++ List.replicate made.length none
      nodes := g.nodes ++ [⟨op, none, inputs, made, body⟩] }

/-- Makes a value that no node makes. -/
def addValue (g : Graph) (name : Option String) : Except Fault (Graph × Wire) := do
  let w ← Wire.ofIndex g.valueCount
  pure (g.withValue name, w)

/-- Makes a value that comes in from outside. -/
def addInput (g : Graph) (name : String) : Except Fault (Graph × Wire) := do
  let w ← Wire.ofIndex g.valueCount
  pure (g.withInput name w, w)

/-- Asks for a wire, which need not be one of the graph. -/
def addOutput (g : Graph) (w : Wire) : Graph := { g with outputs := g.outputs ++ [w] }

/-- Appends a node that makes `count` values without names. -/
def addNode (g : Graph) (op : String) (inputs : List Wire) (body : Body) (count : Nat) :
    Except Fault (Graph × List Wire) := do
  let made ← (List.range' g.valueCount count).mapM Wire.ofIndex
  pure (g.withNode op inputs body made, made)

/-- Appends a node with constants. -/
def addOp (g : Graph) (op : String) (inputs : List Wire) (attrs : Attributes) (count : Nat) :
    Except Fault (Graph × List Wire) :=
  g.addNode op inputs (.plain attrs) count

/-- Appends a node that holds a graph. -/
def addFused (g : Graph) (op : String) (inputs : List Wire) (inner : Graph) (count : Nat) :
    Except Fault (Graph × List Wire) :=
  g.addNode op inputs (.fused inner) count

/-- Names the node appended last, if there is one. -/
def nameLast? (g : Graph) (name : String) : Option Graph :=
  match g.nodes.getLast? with
  | some node => some { g with nodes := g.nodes.dropLast ++ [{ node with name := some name }] }
  | none => none

@[simp] theorem valueCount_withValue (g : Graph) (name : Option String) :
    (g.withValue name).valueCount = g.valueCount + 1 := List.length_append

@[simp] theorem valueCount_withInput (g : Graph) (name : String) (w : Wire) :
    (g.withInput name w).valueCount = g.valueCount + 1 := List.length_append

@[simp] theorem valueCount_withNode (g : Graph) (op : String) (inputs : List Wire) (body : Body)
    (made : List Wire) :
    (g.withNode op inputs body made).valueCount = g.valueCount + made.length := by
  simp [withNode, valueCount]

/-! ### What the operations come to -/

/-- Each operation makes its wires first, and then puts them in. -/
theorem putting_ok_iff {α : Type} {making : Except Fault α} {put : α → Graph} {g : Graph} {made : α} :
    (making >>= fun a => pure (put a, a)) = .ok (g, made) ↔ making = .ok made ∧ g = put made := by
  cases making with
  | error fault => simp [bind, Except.bind]
  | ok a =>
    show Except.ok (put a, a) = .ok (g, made) ↔ _
    rw [Except.ok.injEq, Except.ok.injEq, Prod.mk.injEq]
    constructor
    · rintro ⟨rfl, rfl⟩
      exact ⟨rfl, rfl⟩
    · rintro ⟨rfl, rfl⟩
      exact ⟨rfl, rfl⟩

theorem addValue_ok_iff {g g' : Graph} {name : Option String} {w : Wire} :
    g.addValue name = .ok (g', w) ↔
      (g.valueCount < Wire.limit ∧ w = ⟨g.valueCount⟩) ∧ g' = g.withValue name := by
  rw [addValue, putting_ok_iff, Wire.ofIndex_ok_iff]

theorem addInput_ok_iff {g g' : Graph} {name : String} {w : Wire} :
    g.addInput name = .ok (g', w) ↔
      (g.valueCount < Wire.limit ∧ w = ⟨g.valueCount⟩) ∧ g' = g.withInput name w := by
  rw [addInput, putting_ok_iff, Wire.ofIndex_ok_iff]

theorem addNode_ok_iff {g g' : Graph} {op : String} {inputs made : List Wire} {body : Body}
    {count : Nat} :
    g.addNode op inputs body count = .ok (g', made) ↔
      ((∀ n ∈ List.range' g.valueCount count, n < Wire.limit) ∧
        made = (List.range' g.valueCount count).map Wire.mk) ∧
      g' = g.withNode op inputs body made := by
  rw [addNode, putting_ok_iff, Wire.mapM_ofIndex_ok_iff]

end Graph

/-- The constants of a node; a fused node has none. -/
def Node.attrs (n : Node) : Attributes :=
  match n.body with
  | .plain attrs => attrs
  | .fused _ => Keyed.empty

/-- The graph that a node holds. -/
def Node.inner? (n : Node) : Option Graph :=
  match n.body with
  | .plain _ => none
  | .fused inner => some inner

end ShapeFlow
