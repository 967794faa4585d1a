import ShapeFlow.Rule.Elementwise

/-! Matrix products: of two matrices, of two batches of them, and added to a first operand. A product
    is there when the columns of the left factor are the rows of the right one. -/

namespace ShapeFlow.Matrix

/-- The shape of the product of two matrices. -/
def productShape (lhs rhs : Dims) : Outcome Dims :=
  match lhs, rhs with
  | [rows, inner], [inner', cols] =>
    if inner = inner' then pure [rows, cols]
    else refuse (.incompatibleShapes (.innerSizes lhs rhs))
  | _, _ => refuse (.incompatibleShapes (.notMatrices lhs rhs))

/-- Two matrices have a product if the left one has as many columns as the right one has rows. -/
theorem productShape_ok_iff {l r dims : Dims} :
    productShape l r = .ok dims ↔
      ∃ rows inner cols, l = [rows, inner] ∧ r = [inner, cols] ∧ dims = [rows, cols] := by
  constructor
  · intro h
    unfold productShape at h
    split at h
    · next rows inner inner' cols =>
      split at h
      · next hinner =>
        cases h
        exact ⟨rows, inner, cols, rfl, by rw [hinner], rfl⟩
      · cases h
    · cases h
  · rintro ⟨rows, inner, cols, rfl, rfl, rfl⟩
    exact if_pos rfl

/-- The product of two matrices as a value, of the left type. -/
def productOf (lhs rhs : ValueInfo) : Outcome ValueInfo := do
  let l ← lhs.asTensor
  let r ← rhs.asTensor
  let dims ← productShape l r
  pure (.tensor dims lhs.elem)

/-- The product of two matrices. -/
def product (inputs : List ValueInfo) : Outcome (List ValueInfo) := do
  let (lhs, rhs) ← Operands.two inputs
  let x ← productOf lhs rhs
  pure [x]

/-- The products of two batches of matrices. -/
def batchedProduct (inputs : List ValueInfo) : Outcome (List ValueInfo) := do
  let (lhs, rhs) ← Operands.two inputs
  let l ← lhs.asTensor
  let r ← rhs.asTensor
  match l, r with
  | [batch, rows, inner], [batch', inner', cols] =>
    if batch ≠ batch' then refuse (.incompatibleShapes (.batchSizes batch batch'))
    else if inner ≠ inner' then refuse (.incompatibleShapes (.batchInnerSizes inner inner'))
    else pure [.tensor [batch, rows, cols] lhs.elem]
  | _, _ => refuse (.incompatibleShapes (.notBatches l r))

/-- A matrix product added to a first operand. A right factor with one dim counts as a scalar, and
    the product is then the left factor as it stands. -/
def addProduct (inputs : List ValueInfo) : Outcome (List ValueInfo) := do
  let (input, lhs, rhs) ← Operands.threeOrMore inputs
  let r ← rhs.asTensor
  let product ← if r.length = 1 then pure lhs else productOf lhs rhs
  let dims ← Elementwise.shape input product
  pure [.tensor dims input.elem]

end ShapeFlow.Matrix
