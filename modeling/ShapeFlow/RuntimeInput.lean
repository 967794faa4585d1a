import ShapeFlow.Attribute
import ShapeFlow.ValueInfo

/-! What a caller feeds a graph. Tensors come by their sizes and element type alone. Floats, strings
    and tensor lists can be handed over but have no place in inference. -/

namespace ShapeFlow

/-- One run-time input. -/
inductive RuntimeInput where
  | tensor (dims : Dims) (elem : ElemType)
  | bool (value : Bool)
  | int (value : Int)
  | intList (values : List Int)
  | float (value : Binary64)
  | string (value : String)
  | tensorList (shapes : List Dims)
  deriving BEq, Repr

namespace RuntimeInput

/-- The kind of input, as messages put it. -/
def kind : RuntimeInput → String
  | tensor _ _ => "tensor"
  | bool _ => "bool"
  | int _ => "int"
  | intList _ => "int list"
  | float _ => "float"
  | string _ => "string"
  | tensorList _ => "tensor list"

/-- What inference starts from, for the kinds that it takes. -/
def info? : RuntimeInput → Option ValueInfo
  | tensor dims elem => some (.tensor dims (some elem))
  | bool value => some (.scalar (if value then 1 else 0) .bool)
  | int value => some (.scalar value .int64)
  | intList values => some (.intList values)
  | float _ => none
  | string _ => none
  | tensorList _ => none

end RuntimeInput

end ShapeFlow
