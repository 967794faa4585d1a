/-! Element types of tensors. Each has a full name, used where values are exported, and a short
    code, used in messages; both tell the ten types apart. -/

namespace ShapeFlow

/-- The type of a tensor's elements. -/
inductive ElemType where
  | float | half | double | int64 | int32 | int8 | uint8 | bool | quint8 | qint8
  deriving DecidableEq, Repr

namespace ElemType

/-- Every element type, in declaration order. -/
def all : List ElemType :=
  [float, half, double, int64, int32, int8, uint8, bool, quint8, qint8]

/-- The full name. -/
def name : ElemType → String
  | float => "Float"
  | half => "Half"
  | double => "Double"
  | int64 => "Int64"
  | int32 => "Int32"
  | int8 => "Int8"
  | uint8 => "UInt8"
  | bool => "Bool"
  | quint8 => "QUInt8"
  | qint8 => "QInt8"

/-- The short code. -/
def code : ElemType → String
  | float => "f32"
  | half => "f16"
  | double => "f64"
  | int64 => "i64"
  | int32 => "i32"
  | int8 => "i8"
  | uint8 => "u8"
  | bool => "bool"
  | quint8 => "qu8"
  | qint8 => "qi8"

/-- The type with this full name. -/
def ofName? (s : String) : Option ElemType :=
  all.find? (·.name == s)

end ElemType

end ShapeFlow
