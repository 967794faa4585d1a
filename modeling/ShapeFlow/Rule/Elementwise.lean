import ShapeFlow.Dims.Broadcast
import ShapeFlow.Rule.Operands

/-! Operators that work element by element. Two operands are broadcast to one shape, save that a
    right operand with one dim never changes the left one. -/

namespace ShapeFlow.Elementwise

/-- The shape of a two-sided operator. A right side with one dim counts as a scalar and leaves the
    left shape as it is; all others are broadcast. -/
def shape (lhs rhs : ValueInfo) : Outcome Dims := do
  let l ← lhs.asTensor
  let r ← rhs.asTensor
  if r.length = 1 then pure l else Broadcast.shapes l r

/-- One tensor in, one of the same shape and type out. -/
def unary (inputs : List ValueInfo) : Outcome (List ValueInfo) := do
  let x ← Operands.one inputs
  let dims ← x.asTensor
  pure [.tensor dims x.elem]

/-- Two tensors in, one of the left type out. A third operand scales and has no say in shapes. -/
def binary (inputs : List ValueInfo) : Outcome (List ValueInfo) := do
  let (lhs, rhs) ← Operands.twoOrThree inputs
  let dims ← shape lhs rhs
  pure [.tensor dims lhs.elem]

end ShapeFlow.Elementwise
