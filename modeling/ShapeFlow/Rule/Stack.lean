import ShapeFlow.Dims.Access
import ShapeFlow.Dims.Axis
import ShapeFlow.Rule.Operands

/-! Joining tensors of one shape along a new axis. A tensor list names the axis among those that its
    tensors have; the fused form names it among those of the result, and passes a single operand
    on untouched. -/

namespace ShapeFlow.Stack

/-- The shape of tensors stacked along a new axis at a position. -/
def shapes (parts : List Dims) (axis : Nat) : Outcome Dims :=
  match parts with
  | [] => refuse (.invalidValue .stackEmpty)
  | first :: rest =>
    match rest.find? (· ≠ first) with
    | some other => refuse (.incompatibleShapes (.stack first other))
    | none => Dims.insertAt first axis parts.length

/-- Stacks a tensor list along an axis given as an operand. -/
def stack (inputs : List ValueInfo) : Outcome (List ValueInfo) := do
  let (list, dim) ← Operands.two inputs
  let parts ← list.asTensorList
  let rank := match parts with
    | first :: _ => first.length
    | [] => 0
  let axis ← Axis.resolve rank (← dim.asInt)
  let dims ← shapes parts axis
  pure [.tensor dims list.elem]

/-- Stacks the operands along a fixed axis. -/
def fusedStack (dim : Int) (inputs : List ValueInfo) : Outcome (List ValueInfo) := do
  let (first, rest) ← Operands.oneOrMore inputs
  match rest with
  | [] => pure [first]
  | _ :: _ => do
    let front ← first.asTensor
    let others ← rest.mapM ValueInfo.asTensor
    let axis ← Axis.resolve (front.length + 1) dim
    let dims ← shapes (front :: others) axis
    pure [.tensor dims first.elem]

end ShapeFlow.Stack
