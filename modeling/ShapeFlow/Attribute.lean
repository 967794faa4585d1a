import ShapeFlow.Dims
import ShapeFlow.ElemType
import ShapeFlow.Keyed

/-! The constants written on a node. Float attributes are kept as their 64 bits and only compared,
    by the rule of IEEE 754: no NaN equals anything, and the two zeros are equal. -/

namespace ShapeFlow

/-- A double-precision float, by its bits. -/
structure Binary64 where
  bits : UInt64
  deriving Repr

namespace Binary64

/-- All bits but the sign. -/
def magnitude (x : Binary64) : UInt64 := x.bits &&& 0x7fffffffffffffff

/-- The exponent is full and the fraction is not zero. -/
def isNaN (x : Binary64) : Bool := 0x7ff0000000000000 < x.magnitude

/-- Equality of the numbers, not of the bits. -/
def same (x y : Binary64) : Bool :=
  !x.isNaN && !y.isNaN && (x.bits == y.bits || (x.magnitude == 0 && y.magnitude == 0))

instance : BEq Binary64 := ⟨same⟩

end Binary64

/-- A constant on a node. A tensor constant is known by its sizes and element type alone. -/
inductive Attribute where
  | int (value : Int)
  | float (value : Binary64)
  | bool (value : Bool)
  | none
  | tensor (dims : Dims) (elem : ElemType)
  deriving BEq, Repr

/-- The kind of constant, as messages put it. -/
def Attribute.kind : Attribute → String
  | .int _ => "int"
  | .float _ => "float"
  | .bool _ => "bool"
  | .none => "none"
  | .tensor _ _ => "tensor"

/-- The constants of a node by name. -/
abbrev Attributes := Keyed Attribute

end ShapeFlow
