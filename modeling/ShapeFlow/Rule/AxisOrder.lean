import ShapeFlow.Dims.Access
import ShapeFlow.Dims.Axis
import ShapeFlow.Rule.Operands

/-! Operators that reorder axes. The result has the sizes of the operand in another order, so the
    number of elements stays the same. -/

namespace ShapeFlow.AxisOrder

/-- Rows and columns exchanged; a tensor of lower rank stays as it is. -/
def transpose2d (inputs : List ValueInfo) : Outcome (List ValueInfo) := do
  let x ← Operands.one inputs
  let dims ← x.asTensor
  match dims with
  | [] => pure [.tensor dims x.elem]
  | [_] => pure [.tensor dims x.elem]
  | [rows, cols] => pure [.tensor [cols, rows] x.elem]
  | _ => refuse (.incompatibleShapes (.aboveMatrix dims))

/-- Two axes exchanged. -/
def transpose (inputs : List ValueInfo) : Outcome (List ValueInfo) := do
  let (x, first, second) ← Operands.three inputs
  let dims ← x.asTensor
  let i ← Axis.resolve dims.length (← first.asInt)
  let j ← Axis.resolve dims.length (← second.asInt)
  let swapped ← Dims.exchange dims i j
  pure [.tensor swapped x.elem]

/-- The sizes at the axes of a list, in its order. A negative axis is refused, then one that the
    tensor lacks or that was `seen` before. -/
def gather (dims : Dims) (perm : List Int) (seen : List Nat) : List Int → Outcome Dims
  | [] => pure []
  | axis :: rest =>
    if axis < 0 then
      refuse (.invalidValue (.permutationNegative axis))
    else if dims.length ≤ axis.toNat ∨ axis.toNat ∈ seen then
      refuse (.invalidValue (.permutation perm dims.length))
    else do
      let size ← Dims.entry dims axis.toNat
      let sizes ← gather dims perm (axis.toNat :: seen) rest
      pure (size :: sizes)

/-- The axes in the order that a list of all of them gives. -/
def permute (inputs : List ValueInfo) : Outcome (List ValueInfo) := do
  let (x, order) ← Operands.two inputs
  let dims ← x.asTensor
  let perm ← order.asInts
  if perm.length ≠ dims.length then
    refuse (.invalidValue (.permutationLength perm dims.length))
  else do
    let permuted ← gather dims perm [] perm
    pure [.tensor permuted x.elem]

end ShapeFlow.AxisOrder
