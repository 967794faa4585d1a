import ShapeFlow.Inference.Walk
import ShapeFlow.RuntimeInput

/-! Whole runs. The run-time inputs are all converted before the graph is looked at, the walk comes
    next, and the wires that the graph asks for are read off at the end. -/

namespace ShapeFlow

/-- The result of a run: what is known of the wires of the outermost graph, and of the wires asked
    for. -/
structure Report where
  graph : Graph
  table : Table
  outputs : List ValueInfo

namespace Report

/-- What is known of a wire. -/
def get? (r : Report) (w : Wire) : Option ValueInfo := r.table.get? w

/-- The known wires in order of number. The table of a built graph is never too long to be listed. -/
def entries (r : Report) : List (Wire × ValueInfo) := r.table.known

/-- The number of known wires. -/
def size (r : Report) : Nat := r.table.size

def isEmpty (r : Report) : Bool := r.table.isEmpty

/-- The wires of the graph that no rule described. -/
def unresolved (r : Report) : List Wire :=
  ((List.range r.graph.valueCount).map Wire.mk).filter fun w => (r.get? w).isNone

/-- The sizes in a report, such as `[2 3]` for a tensor or `[[4 6] [2 6]]` for a list. -/
def sizesText : Extent → String
  | .tensor dims => Dims.spaced dims
  | .list shapes => Dims.bracketed " " (shapes.map Dims.spaced)

/-- The name of a value, or its number after a percent sign. -/
def nameText (g : Graph) (w : Wire) : String :=
  match g.valueName? w with
  | some name => name
  | none => "%" ++ w.text

/-- One line for each known wire. -/
def text (r : Report) : String :=
  String.join (r.entries.map fun (w, info) =>
    nameText r.graph w ++ ": " ++ sizesText info.extent ++ "\n")

end Report

namespace Run

/-- What inference starts from; the first input of a kind that it does not take is refused. -/
def infos : Nat → List RuntimeInput → Traced (List ValueInfo)
  | _, [] => pure []
  | index, input :: rest =>
    match input.info? with
    | some info => do
      let others ← infos (index + 1) rest
      pure (info :: others)
    | none => .fail (.unsupportedInput index input.kind)

/-- Everything but the dump. -/
def report (setup : Setup) (g : Graph) (inputs : List RuntimeInput) : Traced Report := do
  let given ← infos 0 inputs
  let table ← g.walk setup 0 given
  let outputs ← Traced.ofFault (table.readAll g.outputs)
  pure ⟨g, table, outputs⟩

end Run

/-- Infers what is known of every value of a graph. -/
def Graph.infer (setup : Setup) (g : Graph) (inputs : List RuntimeInput) : Traced Report := do
  let report ← Run.report setup g inputs
  if setup.options.dump then do
    Traced.emit (.dumped report.text)
    pure report
  else pure report

end ShapeFlow
