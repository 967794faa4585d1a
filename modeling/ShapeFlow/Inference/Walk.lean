import ShapeFlow.Graph.Basic
import ShapeFlow.Inference.Table
import ShapeFlow.Inference.Traced
import ShapeFlow.Options
import ShapeFlow.RuleBook

/-! The walk over a graph. Starting from what is known of its inputs, it looks at each node once, in
    stored order: it reads the node's wires, works out what the node makes, and fills the wires
    made. What a node makes depends on what it reads alone, so the walk is a left fold over the
    nodes that carries the table.

    A fused node is worked out by a walk over its own graph, which starts from plain tensors: the
    integers of a payload stay outside. -/

namespace ShapeFlow

/-- What stays the same throughout a run. -/
structure Setup where
  book : RuleBook
  options : Options

/-- The node as messages show it. -/
def Node.label (n : Node) : Label := ⟨n.op, n.name⟩

namespace Walk

/-- What the rule of a plain node makes of the values read. -/
def applyRule (setup : Setup) (node : Label) (attrs : Attributes) (count : Nat)
    (given : List ValueInfo) : Traced (List ValueInfo) :=
  match setup.book.get? node.op with
  | none => .fail (.unknownOperator node)
  | some rule =>
    match rule given ⟨node.op, attrs, count, setup.options.endOffset⟩ with
    | .ok made => do
      Traced.emit (.inferred node.op given made)
      pure made
    | .error (.refused error) => .fail (.refused node error given)
    | .error (.faulted fault) => .fault fault

/-- What a fused graph starts from: each value read, as a tensor. -/
def seeds (setup : Setup) (node : Label) (given : List ValueInfo) : Traced (List ValueInfo) :=
  if setup.options.marks node.op then
    match given.mapM fun x => x.asTensor.map fun dims => ValueInfo.tensor dims x.elem with
    | .ok tensors => pure tensors
    | .error (.refused error) => .fail (.refused node error given)
    | .error (.faulted fault) => .fault fault
  else .fault (.notFusion node.op)

/-- What a fused graph hands to the outputs of its node. -/
def collect (node : Label) (asked : List Wire) (count : Nat) (table : Table) :
    Traced (List ValueInfo) :=
  if asked.length = count then .ofFault (table.readAll asked)
  else .fail (.innerOutputs node asked.length count)

/-- Fills the wires that a node makes. The last ones stay empty where fewer values were made. -/
def store (node : Label) (outputs : List Wire) (made : List ValueInfo) (table : Table) :
    Traced Table :=
  if outputs.length < made.length then
    .fail (.tooManyOutputs node made.length outputs.length)
  else .ofFault (table.insertAll (outputs.zip made))

/-- The table that a walk starts from. -/
def start (count : Nat) (inputs : List Wire) (given : List ValueInfo) : Traced Table :=
  if given.length = inputs.length then
    .ofFault ((Table.ofSize count).insertAll (inputs.zip given))
  else .fail (.inputCount inputs.length given.length)

end Walk

mutual

/-- Works out the values of a graph with `depth` graphs around it. -/
def Graph.walk (setup : Setup) (depth : Nat) : Graph → List ValueInfo → Traced Table
  | ⟨names, nodes, inputs, _⟩, given => do
    let table ← Walk.start names.length inputs given
    walkNodes setup depth nodes table
termination_by structural g => g

/-- Visits nodes from the left. -/
def walkNodes (setup : Setup) (depth : Nat) : List Node → Table → Traced Table
  | [], table => pure table
  | node :: rest, table => do
    let table ← node.visit setup depth table
    walkNodes setup depth rest table
termination_by structural nodes => nodes

/-- Reads the wires of a node and fills those that it makes. -/
def Node.visit (setup : Setup) (depth : Nat) : Node → Table → Traced Table
  | ⟨op, name, inputs, outputs, body⟩, table => do
    let given ← Traced.ofFault (table.readAll inputs)
    let made ← body.make setup depth ⟨op, name⟩ outputs.length given
    Walk.store ⟨op, name⟩ outputs made table
termination_by structural node => node

/-- Works out what a node makes of the values read. -/
def Body.make (setup : Setup) (depth : Nat) (node : Label) (count : Nat) :
    Body → List ValueInfo → Traced (List ValueInfo)
  | .plain attrs, given => Walk.applyRule setup node attrs count given
  | .fused inner, given => do
    let tensors ← Walk.seeds setup node given
    Traced.emit (.entered node.op (depth + 1) inner.nodes.length)
    let table ← Traced.inside node (inner.walk setup (depth + 1) tensors)
    Traced.emit (.left node.op)
    Walk.collect node inner.outputs count table
termination_by structural body => body

end

/-- A visit reads, makes and stores. -/
theorem Node.visit_eq (setup : Setup) (depth : Nat) (n : Node) (table : Table) :
    n.visit setup depth table
      = (do
        let given ← Traced.ofFault (table.readAll n.inputs)
        let made ← n.body.make setup depth n.label n.outputs.length given
        Walk.store n.label n.outputs made table) := by
  cases n
  rfl

end ShapeFlow
