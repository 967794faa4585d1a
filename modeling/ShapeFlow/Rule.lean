import ShapeFlow.CallSite
import ShapeFlow.Rule.AxisOrder
import ShapeFlow.Rule.Chunk
import ShapeFlow.Rule.Concat
import ShapeFlow.Rule.Constant
import ShapeFlow.Rule.EmbeddingBag
import ShapeFlow.Rule.Listing
import ShapeFlow.Rule.Matrix
import ShapeFlow.Rule.Reshape
import ShapeFlow.Rule.Slice
import ShapeFlow.Rule.Stack

/-! The built-in shape rules. A rule maps what is known of the operands to what is known of the
    outputs; what a node fixes once and for all, such as an axis, is a field of the rule. A rule
    may describe fewer outputs than its node has. -/

namespace ShapeFlow

/-- A shape rule. -/
inductive Rule where
  | unary
  | binary
  | product
  | batchedProduct
  | addProduct
  | transpose2d
  | transpose
  | permute
  | flatten
  | reshape
  | concat
  | fusedConcat (dim : Int)
  | stack
  | fusedStack (dim : Int)
  | chunk
  | constantChunk (chunks dim : Int)
  | slice
  | listConstruct
  | listUnpack (count : Nat)
  | embeddingBag (packing : Packing) (endOffset : Bool)
  | constant (value : Attribute)

namespace Rule

/-- What a rule makes of its operands. -/
def infer : Rule → List ValueInfo → Outcome (List ValueInfo)
  | unary => Elementwise.unary
  | binary => Elementwise.binary
  | product => Matrix.product
  | batchedProduct => Matrix.batchedProduct
  | addProduct => Matrix.addProduct
  | transpose2d => AxisOrder.transpose2d
  | transpose => AxisOrder.transpose
  | permute => AxisOrder.permute
  | flatten => Reshape.flatten
  | reshape => Reshape.reshape
  | concat => Concat.concat
  | fusedConcat dim => Concat.fusedConcat dim
  | stack => Stack.stack
  | fusedStack dim => Stack.fusedStack dim
  | chunk => Chunk.chunk
  | constantChunk chunks dim => Chunk.constantChunk chunks dim
  | slice => Slice.slice
  | listConstruct => Listing.construct
  | listUnpack count => Listing.unpack count
  | embeddingBag packing endOffset => EmbeddingBag.pool packing endOffset
  | constant value => Constant.constant value

/-- A rule before its fields are read off a node. -/
inductive Kind where
  | unary | binary | product | batchedProduct | addProduct | transpose2d | transpose | permute
  | flatten | reshape | concat | fusedConcat | stack | fusedStack | chunk | constantChunk | slice
  | listConstruct | listUnpack
  | embeddingBag (packing : Packing)
  | constant
  deriving DecidableEq, Repr

/-- The chunks of a node are its outputs, so a positive count has to be their number. Any other
    count is left to the rule to refuse. -/
def constantChunkAt (site : CallSite) : Outcome Rule := do
  let chunks ← site.requiredInt "chunks"
  let dim ← site.requiredInt "dim"
  if 0 < chunks ∧ chunks.toNat ≠ site.outputCount then
    refuse (.outputCount site.outputCount chunks.toNat)
  else
    pure (.constantChunk chunks dim)

/-- Reads the fields of a rule off a node. -/
def Kind.ruleAt : Kind → CallSite → Outcome Rule
  | unary, _ => pure .unary
  | binary, _ => pure .binary
  | product, _ => pure .product
  | batchedProduct, _ => pure .batchedProduct
  | addProduct, _ => pure .addProduct
  | transpose2d, _ => pure .transpose2d
  | transpose, _ => pure .transpose
  | permute, _ => pure .permute
  | flatten, _ => pure .flatten
  | reshape, _ => pure .reshape
  | concat, _ => pure .concat
  | fusedConcat, site => do
    let dim ← site.requiredInt "dim"
    pure (.fusedConcat dim)
  | stack, _ => pure .stack
  | fusedStack, site => do
    let dim ← site.requiredInt "dim"
    pure (.fusedStack dim)
  | chunk, _ => pure .chunk
  | constantChunk, site => constantChunkAt site
  | slice, _ => pure .slice
  | listConstruct, _ => pure .listConstruct
  | listUnpack, site => pure (.listUnpack site.outputCount)
  | embeddingBag packing, site => pure (.embeddingBag packing site.endOffset)
  | constant, site => pure (.constant ((site.attrs.get? "value").getD .none))

end Rule

end ShapeFlow
