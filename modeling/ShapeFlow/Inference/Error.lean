import ShapeFlow.RuleError
import ShapeFlow.ValueInfo

/-! Why a run has no result. Each error knows the node that it arose at; an error of a fused node's
    graph is wrapped once for every graph around it, outermost first, so the wrappers spell out
    the way down to the node that failed. -/

namespace ShapeFlow

/-- A node as messages show it. -/
structure Label where
  op : String
  name : Option String
  deriving DecidableEq, Repr

/-- The operator in quotes, followed by the name where there is one. -/
def Label.text (node : Label) : String :=
  match node.name with
  | some name => "\"" ++ node.op ++ "\" (node \"" ++ name ++ "\")"
  | none => "\"" ++ node.op ++ "\""

/-- The failure of a run. -/
inductive InferenceError where
  | unknownOperator (node : Label)
  | unsupportedInput (index : Nat) (kind : String)
  | inputCount (expected actual : Nat)
  | refused (node : Label) (cause : RuleError) (inputs : List ValueInfo)
  | tooManyOutputs (node : Label) (produced available : Nat)
  | innerOutputs (node : Label) (declared available : Nat)
  | inside (node : Label) (inner : InferenceError)
  deriving DecidableEq, Repr

/-- What callers tell failures apart by. -/
inductive ErrorKind where
  | unsupportedOperator
  | unsupportedInputType
  | arityMismatch
  | shapeMismatch
  | invalidAttribute
  | typeMismatch
  deriving DecidableEq, Repr

/-- The kind of failure that a refusal is. -/
def RuleError.kind : RuleError → ErrorKind
  | .inputCount _ _ _ => .arityMismatch
  | .outputCount _ _ => .arityMismatch
  | .incompatibleShapes _ => .shapeMismatch
  | .invalidValue _ => .invalidAttribute
  | .typeMismatch _ _ => .typeMismatch

namespace InferenceError

/-- The kind of the innermost error. -/
def kind : InferenceError → ErrorKind
  | unknownOperator _ => .unsupportedOperator
  | unsupportedInput _ _ => .unsupportedInputType
  | inputCount _ _ => .arityMismatch
  | refused _ cause _ => cause.kind
  | tooManyOutputs _ _ _ => .arityMismatch
  | innerOutputs _ _ _ => .arityMismatch
  | inside _ inner => inner.kind

/-- The names of the nodes on the way down to the failure. An error that no node has stands for a
    node without a name. -/
def path : InferenceError → List (Option String)
  | unknownOperator node => [node.name]
  | unsupportedInput _ _ => [none]
  | inputCount _ _ => [none]
  | refused node _ _ => [node.name]
  | tooManyOutputs node _ _ => [node.name]
  | innerOutputs node _ _ => [node.name]
  | inside node inner => node.name :: inner.path

/-- The text of an error. -/
def message : InferenceError → String
  | unknownOperator node => "unsupported operator " ++ node.text
  | unsupportedInput index kind =>
    "input " ++ toString index ++ " has unsupported type " ++ kind
  | inputCount expected actual =>
    "graph has " ++ toString expected ++ " inputs but " ++ toString actual ++ " were provided"
  | refused node cause inputs =>
    "operator " ++ node.text ++ " failed: " ++ cause.message ++ ". Inputs were ("
      ++ ValueInfo.listText inputs ++ ")"
  | tooManyOutputs node produced available =>
    "operator " ++ node.text ++ " output mismatch: operator produced " ++ toString produced
      ++ " outputs but node has " ++ toString available
  | innerOutputs node declared available =>
    "operator " ++ node.text ++ " output mismatch: subgraph has " ++ toString declared
      ++ " outputs but node has " ++ toString available
  | inside node inner => "operator " ++ node.text ++ " subgraph error: " ++ inner.message

theorem message_unknownOperator (node : Label) :
    (unknownOperator node).message = "unsupported operator " ++ node.text := rfl

theorem message_inside (node : Label) (inner : InferenceError) :
    (inside node inner).message
      = "operator " ++ node.text ++ " subgraph error: " ++ inner.message := rfl

/-- The texts of the errors below, the nearest first: a wrapper lies above the error that it wraps,
    and a failed operator above the refusal of its rule. -/
def sources : InferenceError → List String
  | refused _ cause _ => [cause.message]
  | inside _ inner => inner.message :: inner.sources
  | _ => []

end InferenceError

end ShapeFlow
