import ShapeFlow.Attribute
import ShapeFlow.Rule.Operands

/-! Constants. Integers and booleans keep their value; of a float only its type is kept, and its
    payload is 1 whatever the number. -/

namespace ShapeFlow.Constant

/-- What is known of a constant. -/
def info : Attribute → ValueInfo
  | .float _ => .scalar 1 .float
  | .int value => .scalar value .int64
  | .bool value => .scalar (if value then 1 else 0) .bool
  | .none => .absent
  | .tensor dims elem => .tensor dims (some elem)

/-- The value of a constant node. -/
def constant (value : Attribute) (inputs : List ValueInfo) : Outcome (List ValueInfo) := do
  Operands.zero inputs
  pure [info value]

end ShapeFlow.Constant
