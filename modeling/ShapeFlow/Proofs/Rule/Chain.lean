import ShapeFlow.Proofs.Bracketing
import ShapeFlow.Proofs.Rule.Faults

/-! Chains of matrix products. A product has the rows of its left factor and the columns of its right one,
    so what a part of a chain comes to goes together with its neighbours exactly as the matrices at
    its ends do. Wherever the brackets are, two factors therefore have a product exactly if the two
    matrices between them go together: a chain has a product if its matrices do one after another,
    and then with the rows of the first and the columns of the last one. -/

namespace ShapeFlow

/-- Applies a rule for two operands to a chain as the brackets say. -/
def Rule.bracketed (rule : Rule) (chain : Bracketing ValueInfo) : Outcome (List ValueInfo) :=
  (chain.map fun x => [x]).fold fun front back => rule.infer (front ++ back)

namespace ValueInfo

/-- The value is a matrix with this number of rows. -/
def HasRows (x : ValueInfo) (rows : Int) : Prop := ∃ cols, x.asTensor = .ok [rows, cols]

/-- The value is a matrix with this number of columns. -/
def HasCols (x : ValueInfo) (cols : Int) : Prop := ∃ rows, x.asTensor = .ok [rows, cols]

variable {x : ValueInfo} {rows cols n : Int}

theorem hasRows_iff (h : x.asTensor = .ok [rows, cols]) : x.HasRows n ↔ n = rows := by
  simp [HasRows, h, eq_comm]

theorem hasCols_iff (h : x.asTensor = .ok [rows, cols]) : x.HasCols n ↔ n = cols := by
  simp [HasCols, h, eq_comm]

theorem HasRows.unique {rows' : Int} (h : x.HasRows rows) (h' : x.HasRows rows') : rows = rows' := by
  obtain ⟨cols, hx⟩ := h'
  exact (hasRows_iff hx).1 h

theorem HasCols.unique {cols' : Int} (h : x.HasCols cols) (h' : x.HasCols cols') : cols = cols' := by
  obtain ⟨rows, hx⟩ := h'
  exact (hasCols_iff hx).1 h

end ValueInfo

namespace Matrix

/-- The left matrix has as many columns as the right one has rows. -/
def Meet (x y : ValueInfo) : Prop := ∃ inner, x.HasCols inner ∧ y.HasRows inner

variable {x y z : ValueInfo} {chain other front back : Bracketing ValueInfo}

theorem productOf_ok_iff :
    productOf x y = .ok z ↔ ∃ rows inner cols, x.asTensor = .ok [rows, inner] ∧
      y.asTensor = .ok [inner, cols] ∧ z = .tensor [rows, cols] x.elem := by
  constructor
  · intro h
    obtain ⟨l, hl, h⟩ := Outcome.bind_ok_iff.1 h
    obtain ⟨r, hr, h⟩ := Outcome.bind_ok_iff.1 h
    obtain ⟨dims, hdims, h⟩ := Outcome.bind_ok_iff.1 h
    obtain ⟨rows, inner, cols, rfl, rfl, rfl⟩ := productShape_ok_iff.1 hdims
    cases h
    exact ⟨rows, inner, cols, hl, hr, rfl⟩
  · rintro ⟨rows, inner, cols, hx, hy, rfl⟩
    rw [productOf, hx, hy, Outcome.ok_bind, Outcome.ok_bind,
      productShape_ok_iff.2 ⟨rows, inner, cols, rfl, rfl, rfl⟩]
    rfl

theorem exists_productOf_iff : (∃ z, productOf x y = .ok z) ↔ Meet x y := by
  constructor
  · rintro ⟨z, h⟩
    obtain ⟨rows, inner, cols, hx, hy, -⟩ := productOf_ok_iff.1 h
    exact ⟨inner, ⟨rows, hx⟩, ⟨cols, hy⟩⟩
  · rintro ⟨inner, ⟨rows, hx⟩, ⟨cols, hy⟩⟩
    exact ⟨_, productOf_ok_iff.2 ⟨rows, inner, cols, hx, hy, rfl⟩⟩

/-! ### Products of a chain -/

/-- What a chain comes to has the rows of its first matrix, the columns of its last one and the type of
    the first. -/
theorem ends_of_fold (h : chain.fold productOf = .ok z) :
    (∀ n, z.HasRows n ↔ chain.first.HasRows n) ∧ (∀ n, z.HasCols n ↔ chain.last.HasCols n) ∧
      z.elem = chain.first.elem := by
  induction chain generalizing z with
  | single x =>
    cases h
    exact ⟨fun _ => Iff.rfl, fun _ => Iff.rfl, rfl⟩
  | pair front back ihFront ihBack =>
    obtain ⟨a, b, ha, hb, hab⟩ := Bracketing.fold_pair_ok_iff.1 h
    obtain ⟨hrows, -, helem⟩ := ihFront ha
    obtain ⟨-, hcols, -⟩ := ihBack hb
    obtain ⟨rows, inner, cols, hx, hy, rfl⟩ := productOf_ok_iff.1 hab
    have hz := ValueInfo.asTensor_tensor [rows, cols] a.elem
    refine ⟨fun n => ?_, fun n => ?_, helem⟩
    · rw [Bracketing.first, ← hrows, ValueInfo.hasRows_iff hz, ValueInfo.hasRows_iff hx]
    · rw [Bracketing.last, ← hcols, ValueInfo.hasCols_iff hz, ValueInfo.hasCols_iff hy]

/-- Two parts of a chain go together if the matrices between them do. -/
theorem meet_fold_iff (hx : front.fold productOf = .ok x) (hy : back.fold productOf = .ok y) :
    Meet x y ↔ Meet front.last back.first := by
  simp only [Meet, (ends_of_fold hx).2.1, (ends_of_fold hy).1]

/-- A chain has a product if its matrices go together one after another. -/
theorem exists_fold_iff : (∃ z, chain.fold productOf = .ok z) ↔ chain.items.IsChain Meet := by
  induction chain with
  | single x => exact ⟨fun _ => .singleton x, fun _ => ⟨x, rfl⟩⟩
  | pair front back ihFront ihBack =>
    rw [Bracketing.isChain_pair_iff, ← ihFront, ← ihBack]
    constructor
    · rintro ⟨z, h⟩
      obtain ⟨a, b, ha, hb, hab⟩ := Bracketing.fold_pair_ok_iff.1 h
      exact ⟨⟨a, ha⟩, ⟨b, hb⟩, (meet_fold_iff ha hb).1 (exists_productOf_iff.1 ⟨z, hab⟩)⟩
    · rintro ⟨⟨a, ha⟩, ⟨b, hb⟩, hmeet⟩
      obtain ⟨z, hz⟩ := exists_productOf_iff.2 ((meet_fold_iff ha hb).2 hmeet)
      exact ⟨z, Bracketing.fold_pair_ok_iff.2 ⟨a, b, ha, hb, hz⟩⟩

/-- The product of two or more matrices is a tensor. -/
theorem eq_tensor_of_fold (htwo : 2 ≤ chain.items.length) (h : chain.fold productOf = .ok z) :
    ∃ rows cols, chain.first.HasRows rows ∧ chain.last.HasCols cols ∧
      z = .tensor [rows, cols] chain.first.elem := by
  obtain ⟨hrows, hcols, helem⟩ := ends_of_fold h
  cases chain with
  | single x => simp [Bracketing.items] at htwo
  | pair front back =>
    obtain ⟨a, b, -, -, hab⟩ := Bracketing.fold_pair_ok_iff.1 h
    obtain ⟨rows, inner, cols, -, -, rfl⟩ := productOf_ok_iff.1 hab
    exact ⟨rows, cols, (hrows rows).1 ⟨cols, rfl⟩, (hcols cols).1 ⟨rows, rfl⟩, by rw [← helem]; rfl⟩

/-- Chains of the same matrices come to the same, with any brackets. -/
theorem fold_ok_of_items (hsame : chain.items = other.items) (htwo : 2 ≤ chain.items.length)
    (h : chain.fold productOf = .ok z) : other.fold productOf = .ok z := by
  obtain ⟨z', h'⟩ := exists_fold_iff.2 (hsame ▸ exists_fold_iff.1 ⟨z, h⟩)
  have hfirst : chain.first = other.first := by simpa using congrArg List.head? hsame
  have hlast : chain.last = other.last := by simpa using congrArg List.getLast? hsame
  obtain ⟨rows, cols, hrows, hcols, rfl⟩ := eq_tensor_of_fold htwo h
  obtain ⟨rows', cols', hrows', hcols', rfl⟩ := eq_tensor_of_fold (hsame ▸ htwo) h'
  rw [hfirst] at hrows
  rw [hlast] at hcols
  rw [h', hfirst, hrows.unique hrows', hcols.unique hcols']

/-- Of two or more values that go together all are matrices. -/
theorem isMatrix_of_isChain {xs : List ValueInfo} (htwo : 2 ≤ xs.length) (h : xs.IsChain Meet) :
    ∀ x ∈ xs, ∃ rows cols, x.asTensor = .ok [rows, cols] := by
  match xs, htwo, h with
  | x :: y :: rest, _, h =>
    obtain ⟨inner, ⟨rows, hx⟩, -⟩ := (List.isChain_cons_cons.1 h).1
    refine h.induction _ _ (fun a b hmeet _ => ?_) fun _ => ⟨rows, inner, hx⟩
    obtain ⟨n, -, cols, hb⟩ := hmeet
    exact ⟨n, cols, hb⟩

end Matrix

/-- A chain at the rule is a chain of products. -/
theorem Rule.bracketed_product (chain : Bracketing ValueInfo) :
    Rule.product.bracketed chain = chain.fold Matrix.productOf >>= fun z => pure [z] :=
  Bracketing.fold_map (fun _ _ => rfl) chain

theorem Rule.bracketed_product_ok_iff {chain : Bracketing ValueInfo} {made : List ValueInfo} :
    Rule.product.bracketed chain = .ok made ↔
      ∃ z, chain.fold Matrix.productOf = .ok z ∧ made = [z] := by
  rw [bracketed_product, Outcome.bind_ok_iff]
  simp [pure, Except.pure, eq_comm]

theorem Rule.faultsOnly_bracketed_product {P : Fault → Prop} (chain : Bracketing ValueInfo) :
    FaultsOnly P (Rule.product.bracketed chain) := by
  rw [bracketed_product]
  exact .bind (Bracketing.faultsOnly_fold Matrix.faultsOnly_productOf chain) fun _ _ => .pure _

/-- BRACKETING: two or more values multiplied in their order come to one and the same matrix with all
    brackets, or are refused with all of them. They have a product if all are matrices and each has
    as many columns as the next one has rows, and it has the rows of the first and the columns of
    the last, with the type of the first. -/
theorem Rule.infer_product_bracketed (chain other : Bracketing ValueInfo)
    (hsame : chain.items = other.items) (htwo : 2 ≤ chain.items.length) :
    ((∃ made, Rule.product.bracketed chain = .ok made ∧ Rule.product.bracketed other = .ok made) ∨
      ∃ error error', Rule.product.bracketed chain = refuse error ∧
        Rule.product.bracketed other = refuse error') ∧
    ((∃ made, Rule.product.bracketed chain = .ok made) ↔
      (∀ x ∈ chain.items, ∃ rows cols, x.asTensor = .ok [rows, cols]) ∧
        chain.items.IsChain fun x y => ∃ inner, x.HasCols inner ∧ y.HasRows inner) ∧
    ∀ made, Rule.product.bracketed chain = .ok made →
      ∃ rows cols, chain.first.HasRows rows ∧ chain.last.HasCols cols ∧
        made = [.tensor [rows, cols] chain.first.elem] := by
  refine ⟨Outcome.both_ok_or_refused (fun made => ?_) (faultsOnly_bracketed_product chain)
    (faultsOnly_bracketed_product other), ⟨?_, ?_⟩, fun made h => ?_⟩
  · rw [bracketed_product_ok_iff, bracketed_product_ok_iff]
    refine exists_congr fun z => and_congr_left fun _ => ⟨?_, ?_⟩
    · exact Matrix.fold_ok_of_items hsame htwo
    · exact Matrix.fold_ok_of_items hsame.symm (hsame ▸ htwo)
  · rintro ⟨made, h⟩
    obtain ⟨z, hz, -⟩ := bracketed_product_ok_iff.1 h
    have hchain := Matrix.exists_fold_iff.1 ⟨z, hz⟩
    exact ⟨Matrix.isMatrix_of_isChain htwo hchain, hchain⟩
  · rintro ⟨-, hchain⟩
    obtain ⟨z, hz⟩ := Matrix.exists_fold_iff.2 hchain
    exact ⟨[z], bracketed_product_ok_iff.2 ⟨z, hz, rfl⟩⟩
  · obtain ⟨z, hz, rfl⟩ := bracketed_product_ok_iff.1 h
    obtain ⟨rows, cols, hrows, hcols, rfl⟩ := Matrix.eq_tensor_of_fold htwo hz
    exact ⟨rows, cols, hrows, hcols, rfl⟩

/-- Three matrices with brackets from the left and from the right, and three of which the last two do not
    go together. -/
theorem Rule.infer_product_bracketed_three :
    (Rule.product.bracketed (.pair (.pair (.single (.tensor [2, 3] (some .half)))
          (.single (.tensor [3, 5] none))) (.single (.tensor [5, 4] (some .float))))
        = .ok [.tensor [2, 4] (some .half)] ∧
      Rule.product.bracketed (.pair (.single (.tensor [2, 3] (some .half)))
          (.pair (.single (.tensor [3, 5] none)) (.single (.tensor [5, 4] (some .float)))))
        = .ok [.tensor [2, 4] (some .half)]) ∧
    ∃ error error',
      Rule.product.bracketed (.pair (.pair (.single (.tensor [2, 3] none))
          (.single (.tensor [3, 5] none))) (.single (.tensor [4, 4] none))) = refuse error ∧
      Rule.product.bracketed (.pair (.single (.tensor [2, 3] none))
          (.pair (.single (.tensor [3, 5] none)) (.single (.tensor [4, 4] none)))) = refuse error' := by
  constructor
  · obtain ⟨⟨made, hleft, hright⟩ | ⟨error, -, hleft, -⟩, -⟩ := Rule.infer_product_bracketed
      (.pair (.pair (.single (.tensor [2, 3] (some .half))) (.single (.tensor [3, 5] none)))
        (.single (.tensor [5, 4] (some .float))))
      (.pair (.single (.tensor [2, 3] (some .half)))
        (.pair (.single (.tensor [3, 5] none)) (.single (.tensor [5, 4] (some .float)))))
      rfl (by decide)
    · cases hleft
      exact ⟨rfl, hright⟩
    · cases hleft
  · obtain ⟨⟨made, hleft, -⟩ | hrefused, -⟩ := Rule.infer_product_bracketed
      (.pair (.pair (.single (.tensor [2, 3] none)) (.single (.tensor [3, 5] none)))
        (.single (.tensor [4, 4] none)))
      (.pair (.single (.tensor [2, 3] none))
        (.pair (.single (.tensor [3, 5] none)) (.single (.tensor [4, 4] none))))
      rfl (by decide)
    · cases hleft
    · exact hrefused

end ShapeFlow
