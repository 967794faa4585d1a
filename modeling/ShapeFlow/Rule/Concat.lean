import ShapeFlow.Dims.Access
import ShapeFlow.Dims.Axis
import ShapeFlow.Rule.Operands

/-! Joining tensors along an axis that they already have. One tensor alone is passed on and its axis
    is not even looked at. -/

namespace ShapeFlow.Concat

/-- The shapes have one rank, and equal sizes at every axis but one. -/
def Joinable (axis : Nat) (first other : Dims) : Prop :=
  other.length = first.length ∧ other.eraseIdx axis = first.eraseIdx axis

instance (axis : Nat) (first other : Dims) : Decidable (Joinable axis first other) :=
  inferInstanceAs (Decidable (_ ∧ _))

/-- Adds the size of one more shape to the joined one. -/
def extend (first : Dims) (axis : Nat) (joined other : Dims) : Outcome Dims :=
  if Joinable axis first other then do
    let size ← Word.add (← Dims.entry joined axis) (← Dims.entry other axis)
    Dims.replace joined axis size
  else
    refuse (.incompatibleShapes (.concat first other axis))

/-- The shape of the joined tensors. -/
def shapes (parts : List Dims) (dim : Int) : Outcome Dims :=
  match parts with
  | [] => refuse (.invalidValue .concatEmpty)
  | [only] => pure only
  | first :: rest => do
    let axis ← Axis.resolve first.length dim
    rest.foldlM (extend first axis) first

/-- Joins a tensor list along an axis given as an operand. -/
def concat (inputs : List ValueInfo) : Outcome (List ValueInfo) := do
  let (list, axis) ← Operands.two inputs
  match ← list.asTensorList with
  | [only] => pure [.tensor only list.elem]
  | parts => do
    let dims ← shapes parts (← axis.asInt)
    pure [.tensor dims list.elem]

/-- Joins the operands along a fixed axis. -/
def fusedConcat (dim : Int) (inputs : List ValueInfo) : Outcome (List ValueInfo) := do
  let (first, _) ← Operands.oneOrMore inputs
  let parts ← inputs.mapM ValueInfo.asTensor
  let dims ← shapes parts dim
  pure [.tensor dims first.elem]

end ShapeFlow.Concat
