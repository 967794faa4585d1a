import ShapeFlow.Proofs.Rule.Chain
import ShapeFlow.Proofs.Rule.Expansion

/-! The shortcut for scalars. A scalar stands for the sizes `[1]`, and two rules take a right operand with
    one dim for a scalar, whatever its size. A two-sided operator then leaves the left shape as it is.
    Broadcasting leaves it under the shapes that expand to it, so the shortcut is right where the left
    shape has a last size and the single size is that one or 1, and wrong everywhere else. A matrix
    product that is added to a first operand leaves its left factor as it is. No vector has a product
    with a matrix, so there the shortcut takes operands that the product refuses. -/

namespace ShapeFlow

theorem Operands.twoOrThree_of_length (lhs rhs : ValueInfo) {rest : List ValueInfo}
    (h : rest.length ≤ 1) : twoOrThree (lhs :: rhs :: rest) = .ok (lhs, rhs) := by
  rcases rest with _ | ⟨scale, _ | ⟨_, _⟩⟩
  · rfl
  · rfl
  · simp at h

namespace Elementwise

/-- What two sides are refused for: one of them is a list, or two sizes do not go together. -/
theorem shape_error {lhs rhs : ValueInfo} {halt : Halt} (h : shape lhs rhs = .error halt) :
    halt = .refused (.typeMismatch "tensor" "tensor list") ∨
      ∃ l r a b dim, halt = .refused (.incompatibleShapes (.sizes l r a b dim)) := by
  rcases Outcome.bind_error_iff.1 h with hl | ⟨l, -, h⟩
  · exact .inl (ValueInfo.asTensor_error hl)
  rcases Outcome.bind_error_iff.1 h with hr | ⟨r, -, h⟩
  · exact .inl (ValueInfo.asTensor_error hr)
  split at h
  · cases h
  · exact .inr ⟨l, r, Broadcast.shapes_error h⟩

section Tensors

variable {lhs rhs : ValueInfo} {l r : Dims} (hl : lhs.asTensor = .ok l) (hr : rhs.asTensor = .ok r)
  (rest : List ValueInfo) (hrest : rest.length ≤ 1)
include hl hr hrest

theorem binary_of_single (hone : r.length = 1) :
    binary (lhs :: rhs :: rest) = .ok [.tensor l lhs.elem] := by
  simp only [binary, shape, Operands.twoOrThree_of_length lhs rhs hrest, hl, hr, Outcome.ok_bind,
    if_pos hone]
  rfl

theorem binary_of_not_single (hne : r.length ≠ 1) :
    binary (lhs :: rhs :: rest) = (do
      let dims ← Broadcast.shapes l r
      pure [.tensor dims lhs.elem]) := by
  simp only [binary, shape, Operands.twoOrThree_of_length lhs rhs hrest, hl, hr, Outcome.ok_bind,
    if_neg hne]

/-- The operator and broadcasting agree in the result, or in the refusal. -/
theorem binary_eq_shapes_iff :
    binary (lhs :: rhs :: rest) = (do
        let dims ← Broadcast.shapes l r
        pure [.tensor dims lhs.elem]) ↔
      (r.length = 1 → r.Expands l) := by
  by_cases hone : r.length = 1
  · rw [binary_of_single hl hr rest hrest hone, ← Broadcast.shapes_eq_left_iff]
    cases Broadcast.shapes l r with
    | error halt => simp [hone]
    | ok t => simp [hone, pure, Except.pure, ValueInfo.tensor, eq_comm]
  · rw [binary_of_not_single hl hr rest hrest hone]
    simp [hone]

end Tensors

end Elementwise

namespace Matrix

variable {input lhs rhs : ValueInfo} {r : Dims} (rest : List ValueInfo)

/-- A right factor with one dim leaves the left one as it is. -/
theorem addProduct_of_single (hr : rhs.asTensor = .ok r) (hone : r.length = 1) :
    addProduct (input :: lhs :: rhs :: rest) = Elementwise.binary [input, lhs] := by
  simp only [addProduct, Operands.threeOrMore, Elementwise.binary, Operands.twoOrThree, pure_bind, hr,
    Outcome.ok_bind, if_pos hone]

/-- All others are multiplied, and the product is added. -/
theorem addProduct_of_not_single (h : ∀ r, rhs.asTensor = .ok r → r.length ≠ 1) :
    addProduct (input :: lhs :: rhs :: rest) = (do
      let made ← product [lhs, rhs]
      Elementwise.binary (input :: made)) := by
  simp only [addProduct, product, productOf, Operands.threeOrMore, Operands.two, Elementwise.binary,
    Operands.twoOrThree, pure_bind, bind_assoc]
  cases hr : rhs.asTensor with
  | ok r => simp only [Outcome.ok_bind, if_neg (h r hr)]
  | error halt =>
    -- the factors are read in another order here, but no reading is refused in two ways
    cases hl : lhs.asTensor with
    | ok l => rfl
    | error halt' =>
      rw [ValueInfo.asTensor_error hl, ValueInfo.asTensor_error hr]
      rfl

/-- A vector has no product with a matrix. -/
theorem product_of_single {l : Dims} (hl : lhs.asTensor = .ok l) (hr : rhs.asTensor = .ok r)
    (hone : r.length = 1) :
    product [lhs, rhs] = refuse (.incompatibleShapes (.notMatrices l r)) := by
  obtain ⟨size, rfl⟩ := List.length_eq_one_iff.1 hone
  simp only [product, productOf, Operands.two, pure_bind, hl, hr, Outcome.ok_bind, productShape]
  rfl

theorem rank_of_product {made : List ValueInfo} (h : product [lhs, rhs] = .ok made) :
    ∃ r, rhs.asTensor = .ok r ∧ r.length = 2 := by
  simp only [product, Operands.two, pure_bind] at h
  obtain ⟨x, hx, -⟩ := Outcome.bind_ok_iff.1 h
  obtain ⟨rows, inner, cols, -, hr, -⟩ := productOf_ok_iff.1 hx
  exact ⟨_, hr, rfl⟩

/-- Adding refuses no two operands for not being matrices. -/
theorem binary_ne_notMatrices (l r : Dims) :
    Elementwise.binary [input, lhs] ≠ refuse (.incompatibleShapes (.notMatrices l r)) := by
  intro h
  simp only [Elementwise.binary, Operands.twoOrThree, pure_bind] at h
  rcases Outcome.bind_error_iff.1 h with hshape | ⟨dims, -, hdone⟩
  · rcases Elementwise.shape_error hshape with hlist | ⟨_, _, _, _, _, hsizes⟩
    · cases hlist
    · cases hsizes
  · cases hdone

/-- Multiplying and then adding comes to the same but for a right factor with one dim after a left one
    that is a tensor. -/
theorem addProduct_eq_iff :
    addProduct (input :: lhs :: rhs :: rest) = (do
        let made ← product [lhs, rhs]
        Elementwise.binary (input :: made)) ↔
      ∀ l r, lhs.asTensor = .ok l → rhs.asTensor = .ok r → r.length ≠ 1 := by
  constructor
  · intro h l r hl hr hone
    rw [addProduct_of_single rest hr hone, product_of_single hl hr hone] at h
    exact binary_ne_notMatrices l r h
  · intro h
    by_cases hsingle : ∃ r, rhs.asTensor = .ok r ∧ r.length = 1
    · obtain ⟨r, hr, hone⟩ := hsingle
      cases hl : lhs.asTensor with
      | ok l => exact absurd hone (h l r hl hr)
      | error halt =>
        -- the left factor is a list, and a first operand that is one too is refused alike
        rw [addProduct_of_single rest hr hone]
        simp only [product, productOf, Elementwise.binary, Elementwise.shape, Operands.two,
          Operands.twoOrThree, pure_bind, hl, Outcome.error_bind]
        cases hi : input.asTensor with
        | ok i => rfl
        | error halt' =>
          rw [ValueInfo.asTensor_error hl, ValueInfo.asTensor_error hi]
          rfl
    · exact addProduct_of_not_single rest fun r hr hone => hsingle ⟨r, hr, hone⟩

end Matrix

/-- SINGLE: a two-sided operator comes to what broadcasting comes to, down to the refusal, unless its
    right shape is a single size and the left one has no dims, or a last size that differs from it
    while it is not 1. In those cases the operator comes to the left shape, and broadcasting comes to
    another one or is refused. -/
theorem Rule.infer_binary_single {lhs rhs : ValueInfo} {l r : Dims} (hl : lhs.asTensor = .ok l)
    (hr : rhs.asTensor = .ok r) (rest : List ValueInfo) (hrest : rest.length ≤ 1) :
    (Rule.binary.infer (lhs :: rhs :: rest) = (do
        let dims ← Broadcast.shapes l r
        pure [.tensor dims lhs.elem]) ↔
      r.length ≠ 1 ∨ ∃ s d, r = [s] ∧ l.getLast? = some d ∧ (s = 1 ∨ s = d)) ∧
    ∀ s, r = [s] → l = [] ∨ (s ≠ 1 ∧ l.getLast? ≠ some s) →
      Rule.binary.infer (lhs :: rhs :: rest) = .ok [.tensor l lhs.elem] ∧
      ((∃ t, t ≠ l ∧ Broadcast.shapes l r = .ok t) ∨
        ∃ cause, Broadcast.shapes l r = refuse (.incompatibleShapes cause)) := by
  constructor
  · rw [infer, Elementwise.binary_eq_shapes_iff hl hr rest hrest]
    by_cases hone : r.length = 1
    · obtain ⟨s, rfl⟩ := List.length_eq_one_iff.1 hone
      simp [Dims.Expands.single_iff]
    · simp [hone]
  · rintro s rfl hother
    have hnot : ¬ Dims.Expands [s] l := by
      rw [Dims.Expands.single_iff]
      rintro ⟨d, hd, hsame⟩
      rcases hother with rfl | ⟨hone, hlast⟩
      · cases hd
      · exact hlast (hsame.resolve_left hone ▸ hd)
    refine ⟨Elementwise.binary_of_single hl hr rest hrest rfl, ?_⟩
    cases hshapes : Broadcast.shapes l [s] with
    | ok t =>
      refine .inl ⟨t, fun hsame => hnot ?_, rfl⟩
      rw [hsame] at hshapes
      exact Broadcast.shapes_eq_left_iff.1 hshapes
    | error halt =>
      obtain ⟨a, b, dim, rfl⟩ := Broadcast.shapes_error hshapes
      exact .inr ⟨_, rfl⟩

/-- Three columns and a row of three; three columns and a row of four; no dims and a single size. -/
theorem Rule.infer_binary_single_rows :
    Rule.binary.infer [.tensor [2, 3] (some .float), .tensor [3] none]
      = (do
        let dims ← Broadcast.shapes [2, 3] [3]
        pure [.tensor dims (some .float)]) ∧
    (Rule.binary.infer [.tensor [2, 3] (some .float), .tensor [4] none, .scalar 1 .int64]
        = .ok [.tensor [2, 3] (some .float)] ∧
      ∃ cause, Broadcast.shapes [2, 3] [4] = refuse (.incompatibleShapes cause)) ∧
    Rule.binary.infer [.tensor [] (some .float), .tensor [1] none] = .ok [.tensor [] (some .float)] := by
  refine ⟨?_, ?_, ?_⟩
  · exact (Rule.infer_binary_single (ValueInfo.asTensor_tensor [2, 3] (some .float))
      (ValueInfo.asTensor_tensor [3] none) [] (Nat.zero_le 1)).1.2 (.inr ⟨3, 3, rfl, rfl, .inr rfl⟩)
  · obtain ⟨hmade, ⟨t, -, ht⟩ | hbad⟩ := (Rule.infer_binary_single
      (ValueInfo.asTensor_tensor [2, 3] (some .float)) (ValueInfo.asTensor_tensor [4] none)
      [.scalar 1 .int64] (Nat.le_refl 1)).2 4 rfl (.inr (by decide))
    · cases ht
    · exact ⟨hmade, hbad⟩
  · exact ((Rule.infer_binary_single (ValueInfo.asTensor_tensor [] (some .float))
      (ValueInfo.asTensor_tensor [1] none) [] (Nat.zero_le 1)).2 1 rfl (.inl rfl)).1

/-- PRODUCT: a matrix product that is added to a first operand is the first operand added to the left
    factor where the right one has one dim, and else the sum of the first operand and the product,
    down to the refusal. The second holds for a right factor with one dim only where the left one is
    a list. So a right factor with neither one dim nor two is refused, but a vector of any size is
    taken although it has no product. -/
theorem Rule.infer_addProduct_composed (input lhs rhs : ValueInfo) (rest : List ValueInfo) :
    (∀ r, rhs.asTensor = .ok r → r.length = 1 →
      Rule.addProduct.infer (input :: lhs :: rhs :: rest) = Rule.binary.infer [input, lhs]) ∧
    ((∀ r, rhs.asTensor = .ok r → r.length ≠ 1) →
      Rule.addProduct.infer (input :: lhs :: rhs :: rest) = (do
        let made ← Rule.product.infer [lhs, rhs]
        Rule.binary.infer (input :: made))) ∧
    (Rule.addProduct.infer (input :: lhs :: rhs :: rest) = (do
        let made ← Rule.product.infer [lhs, rhs]
        Rule.binary.infer (input :: made)) ↔
      ∀ l r, lhs.asTensor = .ok l → rhs.asTensor = .ok r → r.length ≠ 1) ∧
    (∀ made, Rule.addProduct.infer (input :: lhs :: rhs :: rest) = .ok made →
      ∃ r, rhs.asTensor = .ok r ∧ (r.length = 1 ∨ r.length = 2)) := by
  refine ⟨fun r => Matrix.addProduct_of_single rest, Matrix.addProduct_of_not_single rest,
    Matrix.addProduct_eq_iff rest, fun made h => ?_⟩
  by_cases hsingle : ∃ r, rhs.asTensor = .ok r ∧ r.length = 1
  · obtain ⟨r, hr, hone⟩ := hsingle
    exact ⟨r, hr, .inl hone⟩
  · rw [infer, Matrix.addProduct_of_not_single rest fun r hr hone => hsingle ⟨r, hr, hone⟩] at h
    obtain ⟨product, hproduct, -⟩ := Outcome.bind_ok_iff.1 h
    obtain ⟨r, hr, htwo⟩ := Matrix.rank_of_product hproduct
    exact ⟨r, hr, .inr htwo⟩

/-- A matrix times a scalar, a matrix times a matrix, and a right factor of three dims. -/
theorem Rule.infer_addProduct_composed_ranks :
    Rule.addProduct.infer [.tensor [4, 6] (some .float), .tensor [4, 6] none, .scalar 2 .int64]
      = Rule.binary.infer [.tensor [4, 6] (some .float), .tensor [4, 6] none] ∧
    Rule.addProduct.infer [.tensor [5] (some .float), .tensor [2, 3] none, .tensor [3, 5] none,
        .scalar 1 .int64]
      = (do
        let made ← Rule.product.infer [.tensor [2, 3] none, .tensor [3, 5] none]
        Rule.binary.infer (.tensor [5] (some .float) :: made)) ∧
    ¬ ∃ made, Rule.addProduct.infer [.tensor [4] none, .tensor [2, 3] none, .tensor [3, 4, 1] none]
      = .ok made := by
  refine ⟨?_, ?_, ?_⟩
  · exact (Rule.infer_addProduct_composed _ _ (.scalar 2 .int64) []).1 [1] rfl rfl
  · refine (Rule.infer_addProduct_composed _ _ (.tensor [3, 5] none) _).2.1 fun r hr => ?_
    cases hr
    decide
  · rintro ⟨made, h⟩
    obtain ⟨r, hr, hrank⟩ := (Rule.infer_addProduct_composed _ _ _ _).2.2.2 made h
    cases hr
    revert hrank
    decide

/-- A vector of five sizes as the right factor: it is taken although it has no product. -/
theorem Rule.infer_addProduct_vector :
    Rule.addProduct.infer [.tensor [4, 6] (some .float), .tensor [4, 6] (some .float),
        .tensor [5] (some .float)] = .ok [.tensor [4, 6] (some .float)] ∧
    (do
        let made ← Rule.product.infer [.tensor [4, 6] (some .float), .tensor [5] (some .float)]
        Rule.binary.infer (.tensor [4, 6] (some .float) :: made))
      = refuse (.incompatibleShapes (.notMatrices [4, 6] [5])) :=
  ⟨rfl, rfl⟩

end ShapeFlow
