/-! A *fault* is a broken promise of the caller, as against an operand that a rule turns down: a
    graph that reads a value nothing has produced, a sum that leaves the 64-bit words, a handle
    past the last one. It carries what the message names, and the wording is written once, in
    `message`. -/

namespace ShapeFlow

/-- Word operations that have no result for some operands. -/
inductive WordOp where | add | sub | mul | neg | div | rem
  deriving DecidableEq, Repr

/-- What a word operation does, as its fault message puts it. -/
def WordOp.verb : WordOp → String
  | .add => "add"
  | .sub => "subtract"
  | .mul => "multiply"
  | .neg => "negate"
  | .div => "divide"
  | .rem => "calculate the remainder"

/-- The ways in which a caller's promise breaks. Wires are given by their index. -/
inductive Fault where
  | overflow (op : WordOp)
  | zeroDivisor (op : WordOp)
  | outOfBounds (index size : Nat)
  | readTooEarly (wire : Nat)
  | producedTwice (wire : Nat)
  | notFusion (op : String)
  | wireOverflow
  | casesFailed (cases : List String)
  deriving DecidableEq, Repr

/-- The text of a fault. -/
def Fault.message : Fault → String
  | .overflow op => "attempt to " ++ op.verb ++ " with overflow"
  | .zeroDivisor .rem => "attempt to calculate the remainder with a divisor of zero"
  | .zeroDivisor op => "attempt to " ++ op.verb ++ " by zero"
  | .outOfBounds index size =>
    "position " ++ toString index ++ " is outside of " ++ toString size ++ " entries"
  | .readTooEarly wire => "value " ++ toString wire ++ " was read before it was produced"
  | .producedTwice wire => "value " ++ toString wire ++ " was produced more than once"
  | .notFusion op => "node \"" ++ op ++ "\" has a subgraph but is not a fusion node"
  | .wireOverflow => "value index overflow"
  | .casesFailed cases =>
    toString cases.length ++ " test cases failed: [" ++ ", ".intercalate cases ++ "]"

end ShapeFlow
