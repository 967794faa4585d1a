import ShapeFlow.Rule.Operands
import ShapeFlow.Word

/-! Embedding bags: groups of rows of a table, each pooled into one row. The operands begin with the
    table, the row indices and the offsets. With indices of rank 1 the offsets say where each bag
    begins; with indices of rank 2 every row of them is a bag and nobody looks at the offsets.

    A packed table keeps scale and bias in its rows, so a row of the result is narrower, or wider,
    than a stored one. Only the pooled rows are described, not the other outputs. -/

namespace ShapeFlow

/-- How the rows of a table are stored: plain, a byte per entry with eight bytes of scale and bias,
    or two entries per byte with four. -/
inductive Packing where | plain | byteRow | fourBitRow
  deriving DecidableEq, Repr

namespace Packing

/-- The entries in a stored row. -/
def width : Packing → Int → Int
  | plain, row => row
  | byteRow, row => Word.satSub row 8
  | fourBitRow, row => Word.satMul (Word.satSub row 4) 2

/-- The number of operands. -/
def operandCount : Packing → Nat
  | plain => 8
  | byteRow => 8
  | fourBitRow => 9

/-- The element type of the result: that of a plain table, and float for a packed one. -/
def elem : Packing → ValueInfo → Option ElemType
  | plain, table => table.elem
  | byteRow, _ => some .float
  | fourBitRow, _ => some .float

end Packing

namespace EmbeddingBag

/-- The number of bags. The closing entry of the offsets, if they have one, begins no bag. -/
def bags (indices offsets : ValueInfo) (endOffset : Bool) : Outcome Int := do
  match ← indices.asTensor with
  | [_] =>
    match ← offsets.asTensor with
    | [n] =>
      if endOffset ∧ n = 0 then refuse (.invalidValue .noEndOffset)
      else Word.sub n (if endOffset then 1 else 0)
    | dims => refuse (.incompatibleShapes (.offsets dims))
  | [n, _] => pure n
  | dims => refuse (.incompatibleShapes (.indices dims))

/-- The width of a pooled row. -/
def width (packing : Packing) (table : ValueInfo) : Outcome Int := do
  match (← table.asTensor).getLast? with
  | none => refuse (.incompatibleShapes .weight)
  | some row =>
    if packing.width row ≤ 0 then refuse (.invalidValue (.rowTooSmall row))
    else pure (packing.width row)

/-- The pooled rows. -/
def pool (packing : Packing) (endOffset : Bool) (inputs : List ValueInfo) :
    Outcome (List ValueInfo) := do
  let (table, indices, offsets) ← Operands.threeOf packing.operandCount inputs
  let rows ← bags indices offsets endOffset
  let cols ← width packing table
  pure [.tensor [rows, cols] (packing.elem table)]

end EmbeddingBag

end ShapeFlow
