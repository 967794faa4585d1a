import ShapeFlow.Fault
import ShapeFlow.RuleError

/-! What a shape rule comes to: a result, a refusal of its operands, or a fault. The first halt
    met, in the order in which a rule looks at its operands, is the one reported. -/

namespace ShapeFlow

/-- Why a rule has no result. -/
inductive Halt where
  | refused (error : RuleError)
  | faulted (fault : Fault)
  deriving DecidableEq, Repr

/-- A result, or the reason for having none. -/
abbrev Outcome := Except Halt

/-- Turns the operands down. -/
def refuse {α : Type} (error : RuleError) : Outcome α := .error (.refused error)

/-- Gives up on a broken promise. -/
def giveUp {α : Type} (fault : Fault) : Outcome α := .error (.faulted fault)

end ShapeFlow
