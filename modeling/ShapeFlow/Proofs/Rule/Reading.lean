import ShapeFlow.Proofs.Outcome
import ShapeFlow.Rule

/-! Readings of values. A value is made by one of five constructors, and other element types change nothing
    of what that one stored. Reading gives it back, and a reading for another kind of value is refused;
    but a list of one integer carries the payload that a single integer carries, and only the payload
    is looked at. So such a list is taken wherever a rule reads a single integer, and the rule comes
    to what it comes to with that integer, while lists of all other lengths are refused there. -/

namespace ShapeFlow

/-! ### What was stored -/

/-- How a value is made: by a constructor, and put under other element types afterwards. -/
inductive Making where
  | absent
  | tensor (dims : Dims) (elem : Option ElemType)
  | tensorList (shapes : List Dims) (elem : Option ElemType)
  | scalar (value : Int) (elem : ElemType)
  | intList (values : List Int)
  | retyped (making : Making) (elem : Option ElemType)

namespace Making

/-- The value that is made. -/
def value : Making → ValueInfo
  | absent => .absent
  | tensor dims elem => .tensor dims elem
  | tensorList shapes elem => .tensorList shapes elem
  | scalar value elem => .scalar value elem
  | intList values => .intList values
  | retyped making elem => making.value.withElem elem

/-- What the constructor stored. The absent value is a tensor without dims. -/
def stored : Making → Content
  | absent => .tensor []
  | tensor dims _ => .tensor dims
  | tensorList shapes _ => .tensorList shapes
  | scalar value _ => .int value
  | intList values => .intList values
  | retyped making _ => making.stored

theorem content_value (making : Making) : making.value.content = making.stored := by
  induction making with
  | retyped making elem ih => exact ih
  | _ => rfl

end Making

/-! ### Readings -/

namespace ValueInfo

variable {x : ValueInfo}

theorem asTensorList_ok_iff {shapes : List Dims} :
    x.asTensorList = .ok shapes ↔ x.content = .tensorList shapes := by
  obtain ⟨content, elem⟩ := x
  cases content <;> simp [asTensorList, extent, Content.extent, refuse, pure, Except.pure]

theorem exists_asTensor_iff :
    (∃ dims, x.asTensor = .ok dims) ↔ ∀ shapes, x.content ≠ .tensorList shapes := by
  obtain ⟨content, elem⟩ := x
  cases content <;> simp [asTensor, extent, Content.extent, refuse, pure, Except.pure]

theorem asInts_ok_iff {values : List Int} :
    x.asInts = .ok values ↔
      x.content = .intList values ∨ ∃ value, x.content = .int value ∧ values = [value] := by
  obtain ⟨content, elem⟩ := x
  cases content <;> simp [asInts, payload?, Content.payload?, refuse, pure, Except.pure, eq_comm]

/-- Two kinds of values read as a single integer: integers, and lists of one. -/
theorem asInt_ok_iff {value : Int} :
    x.asInt = .ok value ↔ x.content = .int value ∨ x.content = .intList [value] := by
  obtain ⟨content, elem⟩ := x
  cases content with
  | intList values =>
    rcases values with _ | ⟨first, _ | ⟨second, rest⟩⟩ <;>
      simp [asInt, payload?, Content.payload?, refuse, pure, Except.pure]
  | _ => simp [asInt, payload?, Content.payload?, refuse, pure, Except.pure]

/-- A list of none or of many integers does not read as one. -/
theorem asInt_of_length {values : List Int} (h : x.content = .intList values)
    (hlength : values.length ≠ 1) : x.asInt = refuse (.typeMismatch "int" "int list") := by
  obtain ⟨content, elem⟩ := x
  cases h
  rcases values with _ | ⟨first, _ | ⟨second, rest⟩⟩
  · rfl
  · exact absurd rfl hlength
  · rfl

end ValueInfo

/-! ### Operands that are read as integers -/

namespace Rule

/-- Operands of a rule with one of them left open, which the rule reads as a single integer. -/
inductive IntOperand : Rule → (ValueInfo → List ValueInfo) → Prop where
  | transposeFirst (x second : ValueInfo) :
      IntOperand .transpose fun first => [x, first, second]
  | transposeSecond (x first : ValueInfo) :
      IntOperand .transpose fun second => [x, first, second]
  | chunkCount (x axis : ValueInfo) : IntOperand .chunk fun count => [x, count, axis]
  | chunkAxis (x count : ValueInfo) : IntOperand .chunk fun axis => [x, count, axis]
  | sliceAxis (x first last stride : ValueInfo) :
      IntOperand .slice fun axis => [x, axis, first, last, stride]
  | sliceFirst (x axis last stride : ValueInfo) :
      IntOperand .slice fun first => [x, axis, first, last, stride]
  | sliceLast (x axis first stride : ValueInfo) :
      IntOperand .slice fun last => [x, axis, first, last, stride]
  | sliceStride (x axis first last : ValueInfo) :
      IntOperand .slice fun stride => [x, axis, first, last, stride]
  | stackAxis (list : ValueInfo) : IntOperand .stack fun axis => [list, axis]

namespace IntOperand

variable {rule : Rule} {inputs : ValueInfo → List ValueInfo} (h : rule.IntOperand inputs)
  {x y : ValueInfo}
include h

/-- All that counts of such an operand is the integer that it reads as. -/
theorem infer_congr (hxy : x.asInt = y.asInt) : rule.infer (inputs x) = rule.infer (inputs y) := by
  cases h with
  | transposeFirst | transposeSecond =>
    simp only [infer, AxisOrder.transpose, Operands.three, pure_bind, hxy]
  | chunkCount | chunkAxis => simp only [infer, Chunk.chunk, Operands.three, pure_bind, hxy]
  | sliceAxis | sliceFirst | sliceLast | sliceStride =>
    simp only [infer, Slice.slice, Operands.five, pure_bind, hxy]
  | stackAxis => simp only [infer, Stack.stack, Operands.two, pure_bind, hxy]

/-- Where a rule has a result, all that it reads before such an operand is right, so what does not read
    as an integer in that place is refused for it. -/
theorem infer_error {made : List ValueInfo} {halt : Halt} (hx : rule.infer (inputs x) = .ok made)
    (hy : y.asInt = .error halt) : rule.infer (inputs y) = .error halt := by
  cases h with
  | transposeFirst | transposeSecond =>
    simp only [infer, AxisOrder.transpose, Operands.three, pure_bind, Outcome.bind_ok_iff] at hx ⊢
    obtain ⟨dims, hdims, d, hd, i, hi, -⟩ := hx
    simp only [hdims, hd, hi, hy, Outcome.ok_bind, Outcome.error_bind]
  | chunkCount | chunkAxis =>
    simp only [infer, Chunk.chunk, Operands.three, pure_bind, Outcome.bind_ok_iff] at hx ⊢
    obtain ⟨chunks, hchunks, -⟩ := hx
    simp only [hchunks, hy, Outcome.ok_bind, Outcome.error_bind]
  | sliceAxis | sliceFirst | sliceLast | sliceStride =>
    simp only [infer, Slice.slice, Operands.five, pure_bind, Outcome.bind_ok_iff] at hx ⊢
    obtain ⟨dims, hdims, d, hd, axis, haxis, start, hstart, stop, hstop, -⟩ := hx
    simp only [hdims, hd, haxis, hstart, hstop, hy, Outcome.ok_bind, Outcome.error_bind]
  | stackAxis =>
    simp only [infer, Stack.stack, Operands.two, pure_bind, Outcome.bind_ok_iff] at hx ⊢
    obtain ⟨parts, hparts, -⟩ := hx
    simp only [hparts, hy, Outcome.ok_bind, Outcome.error_bind]

end IntOperand

/-- STORED: a value reads as a tensor list exactly if it was made as one, with its shapes, and as a tensor
    exactly if it was not. It reads as integers exactly if it was made from integers, with these. It
    reads as a single integer, and counts as one, exactly if it was made from one: as an integer or as
    a list with that integer alone. So where a rule that reads a single integer has a result, a list of
    none or of many integers is refused in that place, and a list of one does what its integer does. -/
theorem infer_reads_stored (making : Making) :
    ((∀ shapes, making.value.asTensorList = .ok shapes ↔ making.stored = .tensorList shapes) ∧
      ((∃ dims, making.value.asTensor = .ok dims) ↔
        ∀ shapes, making.stored ≠ .tensorList shapes) ∧
      (∀ values, making.value.asInts = .ok values ↔
        making.stored = .intList values ∨ ∃ value, making.stored = .int value ∧ values = [value]) ∧
      (∀ value, making.value.asInt = .ok value ↔
        making.stored = .int value ∨ making.stored = .intList [value]) ∧
      (making.value.isSingle = true ↔
        ∃ value, making.stored = .int value ∨ making.stored = .intList [value])) ∧
    ∀ (rule : Rule) (inputs : ValueInfo → List ValueInfo), rule.IntOperand inputs →
      (∀ values, making.stored = .intList values → values.length ≠ 1 →
        ∀ x made, rule.infer (inputs x) = .ok made →
          rule.infer (inputs making.value) = refuse (.typeMismatch "int" "int list")) ∧
      ∀ value elem, making.stored = .intList [value] →
        rule.infer (inputs making.value) = rule.infer (inputs (.scalar value elem)) := by
  rw [← making.content_value]
  refine ⟨⟨fun shapes => ValueInfo.asTensorList_ok_iff, ValueInfo.exists_asTensor_iff,
    fun values => ValueInfo.asInts_ok_iff, fun value => ValueInfo.asInt_ok_iff, ?_⟩, ?_⟩
  · rw [ValueInfo.isSingle_iff]
    exact exists_congr fun value => ValueInfo.asInt_ok_iff
  · intro rule inputs h
    refine ⟨fun values hlist hlength x made hx => ?_, fun value elem hlist => h.infer_congr ?_⟩
    · exact h.infer_error hx (ValueInfo.asInt_of_length hlist hlength)
    · rw [ValueInfo.asInt_scalar]
      exact ValueInfo.asInt_ok_iff.2 (.inr hlist)

/-- Ten columns cut in strides of three. A list of two strides is refused; a list with the start alone, under
    any type, is the start. -/
theorem infer_reads_stored_strides :
    slice.infer [.tensor [4, 10] (some .float), .scalar 1 .int64, .scalar 2 .int64, .scalar 9 .int64,
        .intList [3, 1]] = refuse (.typeMismatch "int" "int list") ∧
      slice.infer [.tensor [4, 10] (some .float), .scalar 1 .int64,
        (ValueInfo.intList [2]).withElem none, .scalar 9 .int64, .scalar 3 .int64]
        = .ok [.tensor [4, 3] (some .float)] := by
  have hcut : slice.infer [.tensor [4, 10] (some .float), .scalar 1 .int64, .scalar 2 .int64,
      .scalar 9 .int64, .scalar 3 .int64] = .ok [.tensor [4, 3] (some .float)] := rfl
  constructor
  · exact ((infer_reads_stored (.intList [3, 1])).2 slice _ (.sliceStride _ _ _ _)).1 [3, 1] rfl
      (by decide) (.scalar 3 .int64) _ hcut
  · rw [← hcut]
    exact ((infer_reads_stored (.retyped (.intList [2]) none)).2 slice _ (.sliceFirst _ _ _ _)).2 2
      .int64 rfl

/-- A list of one integer is taken for an axis. -/
theorem infer_transpose_listed_axis :
    (ValueInfo.intList [0]).asInt = .ok 0 ∧ (ValueInfo.intList [0]).isSingle = true ∧
      transpose.infer [.tensor [2, 3] (some .float), .intList [0], .scalar 1 .int64]
        = .ok [.tensor [3, 2] (some .float)] :=
  ⟨rfl, rfl, rfl⟩

end Rule

end ShapeFlow
