import ShapeFlow.ElemType
import ShapeFlow.Outcome

/-! What is known about a value of the graph before the graph runs: a tensor with its sizes, a list
    of tensors, or an integer payload that later operators use as an axis, a count or a target
    shape. A payload also has the sizes of the tensor it stands for, `[1]` for a single integer and
    `[n, 1]` for a list of `n`, so rules that only look at sizes accept it as a tensor.

    A rule reads an operand through one of four readings (`asTensor`, `asTensorList`, `asInts`,
    `asInt`); each fails with the kind of value it was given. A list of one integer reads as a
    single integer too. -/

namespace ShapeFlow

/-- The substance of a value. -/
inductive Content where
  | tensor (dims : Dims)
  | tensorList (shapes : List Dims)
  | int (value : Int)
  | intList (values : List Int)
  deriving DecidableEq, Repr

/-- The sizes of a tensor, or those of each tensor of a list. -/
inductive Extent where
  | tensor (dims : Dims)
  | list (shapes : List Dims)
  deriving DecidableEq, Repr

/-- A value's substance and its element type, where that is known. -/
structure ValueInfo where
  content : Content
  elem : Option ElemType
  deriving DecidableEq, Repr

namespace Content

/-- The sizes, with the stand-in sizes of a payload. -/
def extent : Content → Extent
  | tensor dims => .tensor dims
  | tensorList shapes => .list shapes
  | int _ => .tensor [1]
  | intList values => .tensor [values.length, 1]

/-- The integers carried, if the value is an integer or an integer list. -/
def payload? : Content → Option (List Int)
  | int value => some [value]
  | intList values => some values
  | _ => none

/-- The kind of value, as mismatch messages put it. -/
def kind : Content → String
  | tensor _ => "tensor"
  | tensorList _ => "tensor list"
  | int _ => "int"
  | intList [_] => "int"
  | intList _ => "int list"

end Content

namespace ValueInfo

/-! ### Making values -/

/-- A tensor. -/
def tensor (dims : Dims) (elem : Option ElemType) : ValueInfo := ⟨.tensor dims, elem⟩

/-- A list of tensors with a common element type. -/
def tensorList (shapes : List Dims) (elem : Option ElemType) : ValueInfo :=
  ⟨.tensorList shapes, elem⟩

/-- A single integer. -/
def scalar (value : Int) (elem : ElemType) : ValueInfo := ⟨.int value, some elem⟩

/-- A list of integers. -/
def intList (values : List Int) : ValueInfo := ⟨.intList values, some .int64⟩

/-- The absent value: no dims and no element type. -/
def absent : ValueInfo := ⟨.tensor [], none⟩

/-- The same value under another element type. -/
def withElem (x : ValueInfo) (elem : Option ElemType) : ValueInfo := { x with elem := elem }

/-! ### Reading operands -/

/-- The sizes, with the stand-in sizes of a payload. -/
def extent (x : ValueInfo) : Extent := x.content.extent

/-- The integers carried, if any. -/
def payload? (x : ValueInfo) : Option (List Int) := x.content.payload?

/-- The kind of value, as mismatch messages put it. -/
def kind (x : ValueInfo) : String := x.content.kind

/-- Reads anything but a tensor list as a tensor. -/
def asTensor (x : ValueInfo) : Outcome Dims :=
  match x.extent with
  | .tensor dims => pure dims
  | .list _ => refuse (.typeMismatch "tensor" x.kind)

/-- Reads a tensor list. -/
def asTensorList (x : ValueInfo) : Outcome (List Dims) :=
  match x.extent with
  | .list shapes => pure shapes
  | .tensor _ => refuse (.typeMismatch "tensor list" x.kind)

/-- Reads the integers of a payload. -/
def asInts (x : ValueInfo) : Outcome (List Int) :=
  match x.payload? with
  | some values => pure values
  | none => refuse (.typeMismatch "int list" x.kind)

/-- Reads the only integer of a payload. -/
def asInt (x : ValueInfo) : Outcome Int :=
  match x.payload? with
  | some [value] => pure value
  | _ => refuse (.typeMismatch "int" x.kind)

/-- The payload is exactly one integer. -/
def isSingle (x : ValueInfo) : Bool :=
  match x.payload? with
  | some [_] => true
  | _ => false

/-- The value is a list of tensors. -/
def isTensorList (x : ValueInfo) : Bool :=
  match x.extent with
  | .list _ => true
  | .tensor _ => false

/-! ### Text -/

/-- A value as messages show it, such as `f32 [2, 3]` or `i64 [1] = [5]`. -/
def text (x : ValueInfo) : String :=
  let elem := match x.elem with
    | some e => e.code ++ " "
    | none => ""
  let sizes := match x.extent with
    | .tensor dims => Dims.text dims
    | .list shapes => Dims.bracketed ", " (shapes.map Dims.text)
  let payload := match x.payload? with
    | some values => " = " ++ Dims.text values
    | none => ""
  elem ++ sizes ++ payload

/-- Values one after the other, as messages show them. -/
def listText (xs : List ValueInfo) : String := ", ".intercalate (xs.map text)

/-! ### Readings of values as they were made -/

@[simp] theorem asTensor_tensor (dims : Dims) (e : Option ElemType) :
    (tensor dims e).asTensor = .ok dims := rfl

@[simp] theorem asTensorList_tensorList (shapes : List Dims) (e : Option ElemType) :
    (tensorList shapes e).asTensorList = .ok shapes := rfl

@[simp] theorem asInts_intList (values : List Int) :
    (intList values).asInts = .ok values := rfl

@[simp] theorem asInt_scalar (value : Int) (e : ElemType) :
    (scalar value e).asInt = .ok value := rfl

/-- A value is single exactly when it reads as an integer. -/
theorem isSingle_iff (x : ValueInfo) : x.isSingle = true ↔ ∃ v, x.asInt = .ok v := by
  unfold isSingle asInt
  split <;> simp_all [refuse, pure, Except.pure]

end ValueInfo

end ShapeFlow
