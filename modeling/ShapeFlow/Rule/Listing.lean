import ShapeFlow.Rule.Operands

/-! Packing values into a list and taking tensor lists apart. What the first operand is decides
    whether integers or tensors are packed. -/

namespace ShapeFlow.Listing

/-- Packs integers into an integer list, or tensors into a tensor list of the first one's type. -/
def construct (inputs : List ValueInfo) : Outcome (List ValueInfo) := do
  let (first, _) ← Operands.oneOrMore inputs
  if first.isSingle then do
    let values ← inputs.mapM ValueInfo.asInt
    pure [.intList values]
  else do
    let shapes ← inputs.mapM ValueInfo.asTensor
    pure [.tensorList shapes first.elem]

/-- Takes a tensor list apart into as many tensors as the node has outputs. -/
def unpack (count : Nat) (inputs : List ValueInfo) : Outcome (List ValueInfo) := do
  let list ← Operands.one inputs
  let shapes ← list.asTensorList
  if shapes.length ≠ count then
    refuse (.outputCount count shapes.length)
  else
    pure (shapes.map fun dims => .tensor dims list.elem)

end ShapeFlow.Listing
