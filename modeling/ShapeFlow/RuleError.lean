import ShapeFlow.Dims

/-! Why a rule turns its operands down. The five variants are what callers branch on; inside them
    the cause is kept as data, so that two rules refuse for the same reason exactly when their
    causes are equal, and its wording is written once. -/

namespace ShapeFlow

/-- Reasons for which sizes do not go together. -/
inductive ShapeConflict where
  | sizes (lhs rhs : Dims) (lhsSize rhsSize : Int) (dim : Nat)
  | notMatrices (lhs rhs : Dims)
  | innerSizes (lhs rhs : Dims)
  | notBatches (lhs rhs : Dims)
  | batchSizes (lhs rhs : Int)
  | batchInnerSizes (lhs rhs : Int)
  | aboveMatrix (dims : Dims)
  | concat (first other : Dims) (axis : Nat)
  | stack (first other : Dims)
  | offsets (dims : Dims)
  | indices (dims : Dims)
  | weight
  | custom (text : String)
  deriving DecidableEq, Repr

/-- Reasons for which a number or an attribute is no good. -/
inductive BadValue where
  | axisRange (axis : Int) (rank : Nat)
  | startAfterEnd (first last : Nat)
  | tooManyElements (dims : Dims)
  | secondWildcard (target : Dims)
  | negativeTarget (target : Dims) (size : Int)
  | targetTooLarge (target : Dims)
  | targetCount (count : Int) (target : Dims)
  | permutationLength (perm : List Int) (rank : Nat)
  | permutationNegative (axis : Int)
  | permutation (perm : List Int) (rank : Nat)
  | concatEmpty
  | stackEmpty
  | chunkCount (chunks : Int)
  | chunkNegative (size : Int)
  | chunkTooMany (size chunks : Int)
  | sliceStep (step : Int)
  | noEndOffset
  | rowTooSmall (size : Int)
  | attributeNotInt (name kind : String)
  | attributeMissing (name : String)
  | custom (text : String)
  deriving DecidableEq, Repr

/-- The refusal of a rule. -/
inductive RuleError where
  | inputCount (min : Nat) (max : Option Nat) (actual : Nat)
  | outputCount (expected actual : Nat)
  | incompatibleShapes (cause : ShapeConflict)
  | invalidValue (cause : BadValue)
  | typeMismatch (expected actual : String)
  deriving DecidableEq, Repr

/-- The text of a conflict. -/
def ShapeConflict.message : ShapeConflict → String
  | .sizes lhs rhs lhsSize rhsSize dim =>
    "size " ++ toString lhsSize ++ " of " ++ Dims.text lhs ++ " does not match size "
      ++ toString rhsSize ++ " of " ++ Dims.text rhs ++ " at non-singleton dimension "
      ++ toString dim
  | .notMatrices lhs rhs =>
    "expected two matrices but got shapes " ++ Dims.text lhs ++ " and " ++ Dims.text rhs
  | .innerSizes lhs rhs =>
    "inner dimensions of " ++ Dims.text lhs ++ " and " ++ Dims.text rhs ++ " do not match"
  | .notBatches lhs rhs =>
    "expected two 3D tensors but got shapes " ++ Dims.text lhs ++ " and " ++ Dims.text rhs
  | .batchSizes lhs rhs =>
    "batch sizes " ++ toString lhs ++ " and " ++ toString rhs ++ " do not match"
  | .batchInnerSizes lhs rhs =>
    "inner dimensions " ++ toString lhs ++ " and " ++ toString rhs ++ " do not match"
  | .aboveMatrix dims =>
    "expected a tensor with at most 2 dims but got shape " ++ Dims.text dims
  | .concat first other axis =>
    "cannot concatenate " ++ Dims.text first ++ " and " ++ Dims.text other ++ " along dim "
      ++ toString axis
  | .stack first other =>
    "stacked tensors must have the same shape but got " ++ Dims.text first ++ " and "
      ++ Dims.text other
  | .offsets dims => "expected 1D offsets but got shape " ++ Dims.text dims
  | .indices dims => "expected 1D or 2D indices but got shape " ++ Dims.text dims
  | .weight => "expected weight with at least one dim"
  | .custom text => text

/-- The text of a bad value. -/
def BadValue.message : BadValue → String
  | .axisRange axis rank =>
    "dimension " ++ toString axis ++ " is out of range for a tensor with " ++ toString rank
      ++ " dims"
  | .startAfterEnd first last =>
    "start dim " ++ toString first ++ " is after end dim " ++ toString last
  | .tooManyElements dims => "shape " ++ Dims.text dims ++ " has too many elements"
  | .secondWildcard target => "target shape " ++ Dims.text target ++ " has more than one -1 dim"
  | .negativeTarget target size =>
    "target shape " ++ Dims.text target ++ " has negative size " ++ toString size
  | .targetTooLarge target => "target shape " ++ Dims.text target ++ " has too many elements"
  | .targetCount count target =>
    "cannot reshape " ++ toString count ++ " elements into shape " ++ Dims.text target
  | .permutationLength perm rank =>
    "permutation " ++ Dims.text perm ++ " does not match input rank " ++ toString rank
  | .permutationNegative axis =>
    "negative permute dim " ++ toString axis ++ " is not supported"
  | .permutation perm rank =>
    "permutation " ++ Dims.text perm ++ " is invalid for a tensor with " ++ toString rank
      ++ " dims"
  | .concatEmpty => "cannot concatenate an empty list"
  | .stackEmpty => "cannot stack an empty list"
  | .chunkCount chunks => "chunk count must be positive but got " ++ toString chunks
  | .chunkNegative size => "cannot split a dim with negative size " ++ toString size
  | .chunkTooMany size chunks =>
    "cannot split a dim of size " ++ toString size ++ " into " ++ toString chunks
      ++ " non-empty chunks"
  | .sliceStep step => "slice step must be positive but got " ++ toString step
  | .noEndOffset => "offsets must contain an end offset"
  | .rowTooSmall size =>
    "weight row size " ++ toString size ++ " is too small for the packed format"
  | .attributeNotInt name kind =>
    "expected attribute \"" ++ name ++ "\" to be an int but got " ++ kind
  | .attributeMissing name => "missing attribute \"" ++ name ++ "\""
  | .custom text => text

/-- The text of a refusal. -/
def RuleError.message : RuleError → String
  | .inputCount least none actual =>
    "expected at least " ++ toString least ++ " inputs, got " ++ toString actual
  | .inputCount least (some most) actual =>
    if most = least then
      "expected " ++ toString least ++ " inputs, got " ++ toString actual
    else
      "expected between " ++ toString least ++ " and " ++ toString most ++ " inputs, got "
        ++ toString actual
  | .outputCount expected actual =>
    "expected " ++ toString expected ++ " outputs, got " ++ toString actual
  | .incompatibleShapes cause => "incompatible shapes: " ++ cause.message
  | .invalidValue cause => "invalid value: " ++ cause.message
  | .typeMismatch expected actual => "expected " ++ expected ++ " input but got " ++ actual

end ShapeFlow
