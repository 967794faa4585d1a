import ShapeFlow.Dims.Access
import ShapeFlow.Dims.Axis
import ShapeFlow.Rule.Operands

/-! Splitting an axis into chunks. All chunks but the last have the size of an even split rounded
    up, and the last has what is left; a count that would leave a chunk empty is refused, except
    for the one chunk of an empty axis. -/

namespace ShapeFlow.Chunk

/-- The sizes of the chunks of an axis. Room for the list is not modelled: one of 2^60 sizes or more fits
    no memory, and the run would be given up over it. -/
def sizes (size chunks : Int) : Outcome (List Int) :=
  if chunks ≤ 0 then
    refuse (.invalidValue (.chunkCount chunks))
  else if size < 0 then
    refuse (.invalidValue (.chunkNegative size))
  else if size = 0 then
    if chunks = 1 then pure [0] else refuse (.invalidValue (.chunkTooMany size chunks))
  else if size < chunks then
    refuse (.invalidValue (.chunkTooMany size chunks))
  else do
    let each ← Word.add (← Word.div (← Word.sub size 1) chunks) 1
    let leading ← Word.sub chunks 1
    match Word.mul? each leading with
    | none => refuse (.invalidValue (.chunkTooMany size chunks))
    | some taken =>
      if taken < size then do
        let last ← Word.sub size taken
        pure (List.replicate leading.toNat each ++ [last])
      else
        refuse (.invalidValue (.chunkTooMany size chunks))

/-- The shapes of the chunks of a tensor. -/
def shapes (dims : Dims) (chunks dim : Int) : Outcome (List Dims) := do
  let axis ← Axis.resolve dims.length dim
  let parts ← sizes (← Dims.entry dims axis) chunks
  parts.mapM (Dims.replace dims axis)

/-- The chunks as a tensor list, with their number and axis given as operands. -/
def chunk (inputs : List ValueInfo) : Outcome (List ValueInfo) := do
  let (x, count, axis) ← Operands.three inputs
  let chunks ← count.asInt
  let dim ← axis.asInt
  let parts ← shapes (← x.asTensor) chunks dim
  pure [.tensorList parts x.elem]

/-- The chunks as separate tensors, with their number and axis fixed. -/
def constantChunk (chunks dim : Int) (inputs : List ValueInfo) : Outcome (List ValueInfo) := do
  let x ← Operands.one inputs
  let parts ← shapes (← x.asTensor) chunks dim
  pure (parts.map fun dims => .tensor dims x.elem)

end ShapeFlow.Chunk
