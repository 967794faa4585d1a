import ShapeFlow.Proofs.Rule.Rejoin

/-! Lists of values. Packing looks at the first value alone: behind a single integer it reads integers, and
    behind anything else it reads tensors. A tensor does not read as an integer, but an integer reads as
    the tensor of one element that it stands for. So integers and tensors together are refused in one
    order and taken in another, where the integers are lost. A list of tensors keeps all their sizes
    and the type of the first one, and that is what unpacking gives back. -/

namespace ShapeFlow

/-! ### What can be packed -/

namespace ValueInfo

variable {x : ValueInfo} {xs : List ValueInfo}

/-- A single integer or boolean. -/
def IsScalar (x : ValueInfo) : Prop := ∃ value elem, x = scalar value elem

/-- A tensor that carries no integers. -/
def IsTensor (x : ValueInfo) : Prop := ∃ dims elem, x = tensor dims elem

theorem IsScalar.isSingle (h : x.IsScalar) : x.isSingle = true := by
  obtain ⟨value, elem, rfl⟩ := h
  rfl

theorem IsTensor.isSingle (h : x.IsTensor) : x.isSingle = false := by
  obtain ⟨dims, elem, rfl⟩ := h
  rfl

theorem IsTensor.not_isScalar (h : x.IsTensor) : ¬ x.IsScalar := fun hs =>
  Bool.false_ne_true (h.isSingle.symm.trans hs.isSingle)

theorem IsTensor.asInt (h : x.IsTensor) : x.asInt = refuse (.typeMismatch "int" "tensor") := by
  obtain ⟨dims, elem, rfl⟩ := h
  rfl

theorem isSingle_eq_false_iff (x : ValueInfo) :
    x.isSingle = false ↔ ∀ value, x.payload? ≠ some [value] := by
  unfold isSingle
  split <;> simp_all

/-- Only a tensor list reads as one. -/
theorem eq_of_asTensorList {shapes : List Dims} (h : x.asTensorList = .ok shapes) :
    x = tensorList shapes x.elem := by
  obtain ⟨content, elem⟩ := x
  cases content <;> cases h
  rfl

theorem withElem_eq_self_iff {e : Option ElemType} : x.withElem e = x ↔ x.elem = e := by
  obtain ⟨content, elem⟩ := x
  simp [withElem, eq_comm]

/-- Values under a type are what they were if they all have that type. -/
theorem map_withElem_eq_self_iff {e : Option ElemType} :
    xs.map (·.withElem e) = xs ↔ ∀ x ∈ xs, x.elem = e := by
  induction xs with
  | nil => simp
  | cons x xs ih =>
    rw [List.map_cons, List.cons.injEq, withElem_eq_self_iff, ih, List.forall_mem_cons]

/-- Single integers read as their values, in their order. -/
theorem exists_values (h : ∀ x ∈ xs, x.IsScalar) :
    ∃ values, List.Forall₂ (fun x value => ∃ e, x = scalar value e) xs values ∧
      xs.mapM asInt = .ok values := by
  have hread : ∀ x ∈ xs, ∃ value, x.asInt = .ok value := fun x hx => by
    obtain ⟨value, elem, rfl⟩ := h x hx
    exact ⟨value, rfl⟩
  obtain ⟨values, hvalues⟩ := Outcome.exists_mapM_ok hread
  refine ⟨values, ?_, hvalues⟩
  refine ((List.forall₂_and_left _ _).2 ⟨h, Outcome.mapM_ok_iff.1 hvalues⟩).imp ?_
  rintro x value ⟨⟨value', elem, rfl⟩, hvalue⟩
  cases hvalue
  exact ⟨elem, rfl⟩

/-- Tensors and single integers read as shapes, in their order: a tensor as its own, and an integer as that
    of one element. -/
theorem exists_shapes (h : ∀ x ∈ xs, x.IsScalar ∨ x.IsTensor) :
    ∃ shapes, List.Forall₂ (fun x dims => (∃ e, x = tensor dims e) ∨ x.IsScalar ∧ dims = [1]) xs
      shapes ∧ xs.mapM asTensor = .ok shapes := by
  have hread : ∀ x ∈ xs, ∃ dims, x.asTensor = .ok dims := fun x hx => by
    rcases h x hx with ⟨value, elem, rfl⟩ | ⟨dims, elem, rfl⟩
    · exact ⟨[1], rfl⟩
    · exact ⟨dims, rfl⟩
  obtain ⟨shapes, hshapes⟩ := Outcome.exists_mapM_ok hread
  refine ⟨shapes, ?_, hshapes⟩
  refine ((List.forall₂_and_left _ _).2 ⟨h, Outcome.mapM_ok_iff.1 hshapes⟩).imp ?_
  rintro x dims ⟨⟨value, elem, rfl⟩ | ⟨dims', elem, rfl⟩, hdims⟩
  · cases hdims
    exact .inr ⟨⟨value, elem, rfl⟩, rfl⟩
  · cases hdims
    exact .inl ⟨elem, rfl⟩

/-- Tensors are their shapes and types. -/
theorem map_tensor_eq_map_withElem {shapes : List Dims} (e : Option ElemType)
    (h : List.Forall₂ (fun x dims => ∃ e, x = tensor dims e) xs shapes) :
    (shapes.map fun dims => tensor dims e) = xs.map (·.withElem e) := by
  induction h with
  | nil => rfl
  | cons hx _ ih =>
    obtain ⟨e', rfl⟩ := hx
    rw [List.map_cons, List.map_cons, ih]
    rfl

end ValueInfo

/-! ### Packing -/

namespace Listing

open ValueInfo

variable {x : ValueInfo} {rest : List ValueInfo}

theorem construct_of_isSingle (rest : List ValueInfo) (hx : x.isSingle = true) :
    construct (x :: rest) = (do
      let values ← (x :: rest).mapM asInt
      pure [.intList values]) := by
  simp only [construct, Operands.oneOrMore, pure_bind, hx, if_true]

theorem construct_of_not_isSingle (rest : List ValueInfo) (hx : x.isSingle = false) :
    construct (x :: rest) = (do
      let shapes ← (x :: rest).mapM asTensor
      pure [.tensorList shapes x.elem]) := by
  simp only [construct, Operands.oneOrMore, pure_bind, hx, Bool.false_eq_true, if_false]

/-- Tensors of one type are packed as the list of their shapes. -/
theorem construct_tensors (first : Dims) (rest : List Dims) (e : Option ElemType) :
    construct ((first :: rest).map fun dims => .tensor dims e)
      = .ok [.tensorList (first :: rest) e] := by
  have hshapes := ValueInfo.mapM_asTensor_tensor (first :: rest) e
  rw [List.map_cons] at hshapes ⊢
  rw [construct_of_not_isSingle _ rfl, hshapes]
  rfl

theorem construct_scalars (h : ∀ y ∈ x :: rest, y.IsScalar) :
    ∃ values, List.Forall₂ (fun y value => ∃ e, y = .scalar value e) (x :: rest) values ∧
      construct (x :: rest) = .ok [.intList values] := by
  obtain ⟨values, hvalues, hread⟩ := exists_values h
  refine ⟨values, hvalues, ?_⟩
  rw [construct_of_isSingle _ (h x List.mem_cons_self).isSingle, hread]
  rfl

section Kinds

variable (hkinds : ∀ y ∈ x :: rest, y.IsScalar ∨ y.IsTensor)
include hkinds

/-- Behind a tensor everything is taken for a tensor. -/
theorem construct_of_isTensor (hx : x.IsTensor) :
    ∃ shapes, List.Forall₂ (fun y dims => (∃ e, y = .tensor dims e) ∨ y.IsScalar ∧ dims = [1])
        (x :: rest) shapes ∧
      construct (x :: rest) = .ok [.tensorList shapes x.elem] := by
  obtain ⟨shapes, hshapes, hread⟩ := exists_shapes hkinds
  refine ⟨shapes, hshapes, ?_⟩
  rw [construct_of_not_isSingle _ hx.isSingle, hread]
  rfl

/-- Behind a single integer no tensor is taken. -/
theorem construct_refused {y : ValueInfo} (hx : x.IsScalar) (hy : y ∈ rest) (htensor : y.IsTensor) :
    construct (x :: rest) = refuse (.typeMismatch "int" "tensor") := by
  have hread : (x :: rest).mapM asInt = refuse (.typeMismatch "int" "tensor") := by
    refine Outcome.mapM_error_of_mem (List.mem_cons_of_mem x hy) htensor.asInt fun z hz halt h => ?_
    rcases hkinds z hz with ⟨value, elem, rfl⟩ | hz
    · cases h
    · cases hz.asInt.symm.trans h
      rfl
  rw [construct_of_isSingle _ hx.isSingle, hread]
  rfl

theorem exists_construct_iff :
    (∃ made, construct (x :: rest) = .ok made) ↔ x.IsTensor ∨ ∀ y ∈ x :: rest, y.IsScalar := by
  constructor
  · rintro ⟨made, h⟩
    by_contra hnone
    obtain ⟨hx, hall⟩ := not_or.1 hnone
    have hscalar := (hkinds x List.mem_cons_self).resolve_right hx
    refine hall (List.forall_mem_cons.2 ⟨hscalar, fun y hy => ?_⟩)
    refine (hkinds y (List.mem_cons_of_mem x hy)).resolve_right fun htensor => ?_
    cases h.symm.trans (construct_refused hkinds hscalar hy htensor)
  · rintro (hx | hall)
    · obtain ⟨shapes, -, h⟩ := construct_of_isTensor hkinds hx
      exact ⟨_, h⟩
    · obtain ⟨values, -, h⟩ := construct_scalars hall
      exact ⟨_, h⟩

/-- Whether values can be packed depends on their order exactly if both kinds occur. -/
theorem forall_perm_construct_iff :
    (∀ ys, ys.Perm (x :: rest) →
        ((∃ made, construct ys = .ok made) ↔ ∃ made, construct (x :: rest) = .ok made)) ↔
      (∀ y ∈ x :: rest, y.IsScalar) ∨ ∀ y ∈ x :: rest, y.IsTensor := by
  have hiff {y : ValueInfo} {ys : List ValueInfo} (hp : (y :: ys).Perm (x :: rest)) :
      (∃ made, construct (y :: ys) = .ok made) ↔ y.IsTensor ∨ ∀ z ∈ x :: rest, z.IsScalar := by
    rw [exists_construct_iff fun z hz => hkinds z (hp.mem_iff.1 hz)]
    simp only [hp.mem_iff]
  constructor
  · intro h
    by_contra hboth
    obtain ⟨hscalars, htensors⟩ := not_or.1 hboth
    -- one value of each kind, and the order that has it in front
    obtain ⟨t, ht, hnot⟩ := not_forall₂.1 hscalars
    obtain ⟨s, hs, hnot'⟩ := not_forall₂.1 htensors
    have hfront {y : ValueInfo} (hy : y ∈ x :: rest) := (List.perm_cons_erase hy).symm
    have haccept := (hiff (hfront ht)).2 (.inl ((hkinds t ht).resolve_left hnot))
    have hsame := (h _ (hfront hs)).2 ((h _ (hfront ht)).1 haccept)
    rcases (hiff (hfront hs)).1 hsame with htensor | hall
    · exact hnot' htensor
    · exact hscalars hall
  · rintro hone ys hp
    cases ys with
    | nil => cases hp.nil_eq
    | cons y ys =>
      rw [hiff hp, hiff (.refl _)]
      rcases hone with hall | hall
      · exact iff_of_true (.inr hall) (.inr hall)
      · exact iff_of_true (.inl (hall y (hp.mem_iff.1 List.mem_cons_self)))
          (.inl (hall x List.mem_cons_self))

end Kinds

/-- Tensors alone are packed as the list of their shapes, under the type of the first one. -/
theorem construct_all_tensors (h : ∀ y ∈ x :: rest, y.IsTensor) :
    ∃ shapes, List.Forall₂ (fun y dims => ∃ e, y = .tensor dims e) (x :: rest) shapes ∧
      construct (x :: rest) = .ok [.tensorList shapes x.elem] := by
  obtain ⟨shapes, hshapes, hmade⟩ :=
    construct_of_isTensor (fun y hy => .inr (h y hy)) (h x List.mem_cons_self)
  refine ⟨shapes, ?_, hmade⟩
  refine ((List.forall₂_and_left _ _).2 ⟨h, hshapes⟩).imp ?_
  rintro y dims ⟨htensor, hdims | ⟨hscalar, -⟩⟩
  · exact hdims
  · exact absurd hscalar htensor.not_isScalar

/-! ### Unpacking -/

variable {list : ValueInfo} {shapes : List Dims}

/-- A list is taken apart into as many tensors as it has shapes. -/
theorem unpack_eq (h : list.asTensorList = .ok shapes) (count : Nat) :
    unpack count [list] =
      if shapes.length ≠ count then refuse (.outputCount count shapes.length)
      else pure (shapes.map fun dims => .tensor dims list.elem) := by
  simp only [unpack, Operands.one, pure_bind, h, Outcome.ok_bind]

theorem unpack_of_length (h : list.asTensorList = .ok shapes) {count : Nat}
    (hcount : shapes.length = count) :
    unpack count [list] = .ok (shapes.map fun dims => .tensor dims list.elem) := by
  rw [unpack_eq h, if_neg (not_not.2 hcount)]
  rfl

/-- Packed tensors come out of the list under the type of the first one. -/
theorem unpack_construct (h : ∀ y ∈ x :: rest, y.IsTensor) :
    (do
      let list ← construct (x :: rest)
      unpack (x :: rest).length list) = .ok ((x :: rest).map (·.withElem x.elem)) := by
  obtain ⟨shapes, hshapes, hmade⟩ := construct_all_tensors h
  rw [hmade, Outcome.ok_bind, unpack_of_length (asTensorList_tensorList shapes x.elem)
    hshapes.length_eq.symm]
  exact congrArg Except.ok (map_tensor_eq_map_withElem x.elem hshapes)

/-- An unpacked list is packed as it was. -/
theorem construct_unpack (h : list.asTensorList = .ok shapes) (hne : shapes ≠ []) :
    (do
      let parts ← unpack shapes.length [list]
      construct parts) = .ok [list] := by
  obtain ⟨first, rest, rfl⟩ := List.exists_cons_of_ne_nil hne
  rw [unpack_of_length h rfl, Outcome.ok_bind, construct_tensors, ← eq_of_asTensorList h]

end Listing

open Listing in
/-- KINDS: single integers are packed as the list of their values, and tensors as the list of their
    shapes, under the type of the first one. Where both kinds occur the value in front decides.
    Behind an integer the tensors are refused; behind a tensor the integers are taken for tensors of
    one element, and their values are lost. So values can be packed in any order, if they can be in
    one, exactly if they are of one kind. -/
theorem Rule.infer_listConstruct_kinds {x : ValueInfo} {rest : List ValueInfo}
    (hkinds : ∀ y ∈ x :: rest, y.IsScalar ∨ y.IsTensor) :
    ((∀ y ∈ x :: rest, y.IsScalar) →
      ∃ values, List.Forall₂ (fun y value => ∃ e, y = .scalar value e) (x :: rest) values ∧
        Rule.listConstruct.infer (x :: rest) = .ok [.intList values]) ∧
    ((∀ y ∈ x :: rest, y.IsTensor) →
      ∃ shapes, List.Forall₂ (fun y dims => ∃ e, y = .tensor dims e) (x :: rest) shapes ∧
        Rule.listConstruct.infer (x :: rest) = .ok [.tensorList shapes x.elem]) ∧
    (x.IsScalar → (∃ y ∈ rest, y.IsTensor) →
      Rule.listConstruct.infer (x :: rest) = refuse (.typeMismatch "int" "tensor")) ∧
    (x.IsTensor → (∃ y ∈ rest, y.IsScalar) →
      ∃ shapes, List.Forall₂ (fun y dims => (∃ e, y = .tensor dims e) ∨ y.IsScalar ∧ dims = [1])
          (x :: rest) shapes ∧
        Rule.listConstruct.infer (x :: rest) = .ok [.tensorList shapes x.elem]) ∧
    ((∀ ys, ys.Perm (x :: rest) →
        ((∃ made, Rule.listConstruct.infer ys = .ok made) ↔
          ∃ made, Rule.listConstruct.infer (x :: rest) = .ok made)) ↔
      (∀ y ∈ x :: rest, y.IsScalar) ∨ ∀ y ∈ x :: rest, y.IsTensor) := by
  refine ⟨construct_scalars, construct_all_tensors, ?_, ?_, forall_perm_construct_iff hkinds⟩
  · rintro hx ⟨y, hy, htensor⟩
    exact construct_refused hkinds hx hy htensor
  · rintro hx -
    exact construct_of_isTensor hkinds hx

/-- An integer and a truth value; two tensors; and an integer with a tensor, in both orders. -/
theorem Rule.infer_listConstruct_kinds_mixed :
    (Rule.listConstruct.infer [.scalar 4 .int64, .scalar 1 .bool] = .ok [.intList [4, 1]] ∧
      Rule.listConstruct.infer [.tensor [2, 3] none, .tensor [5] (some .half)]
        = .ok [.tensorList [[2, 3], [5]] none]) ∧
    Rule.listConstruct.infer [.scalar 4 .int64, .tensor [2, 3] none]
        = refuse (.typeMismatch "int" "tensor") ∧
      Rule.listConstruct.infer [.tensor [2, 3] none, .scalar 4 .int64]
        = .ok [.tensorList [[2, 3], [1]] none] := by
  have hscalar (value : Int) (elem : ElemType) : (ValueInfo.scalar value elem).IsScalar :=
    ⟨value, elem, rfl⟩
  have htensor (dims : Dims) (elem : Option ElemType) : (ValueInfo.tensor dims elem).IsTensor :=
    ⟨dims, elem, rfl⟩
  have hscalars : ∀ y ∈ [ValueInfo.scalar 4 .int64, .scalar 1 .bool], y.IsScalar := by
    simp [hscalar]
  have htensors : ∀ y ∈ [ValueInfo.tensor [2, 3] none, .tensor [5] (some .half)], y.IsTensor := by
    simp [htensor]
  have hfront : ∀ y ∈ [ValueInfo.scalar 4 .int64, .tensor [2, 3] none],
      y.IsScalar ∨ y.IsTensor := by
    simp [hscalar, htensor]
  have hback : ∀ y ∈ [ValueInfo.tensor [2, 3] none, .scalar 4 .int64],
      y.IsScalar ∨ y.IsTensor := by
    simp [hscalar, htensor]
  refine ⟨⟨?_, ?_⟩, ?_, ?_⟩
  · obtain ⟨values, -, h⟩ := (Rule.infer_listConstruct_kinds fun y hy => .inl (hscalars y hy)).1 hscalars
    cases h
    rfl
  · obtain ⟨shapes, -, h⟩ :=
      (Rule.infer_listConstruct_kinds fun y hy => .inr (htensors y hy)).2.1 htensors
    cases h
    rfl
  · exact (Rule.infer_listConstruct_kinds hfront).2.2.1 (hscalar 4 .int64)
      ⟨_, List.mem_cons_self, htensor _ _⟩
  · obtain ⟨shapes, -, h⟩ := (Rule.infer_listConstruct_kinds hback).2.2.2.1 (htensor [2, 3] none)
      ⟨_, List.mem_cons_self, hscalar _ _⟩
    cases h
    rfl

/-- An integer behind a tensor: it is taken for a tensor of one element, and in front it is refused. -/
theorem Rule.infer_listConstruct_integer_last :
    Rule.listConstruct.infer [.tensor [2, 3] (some .float), .scalar 4 .int64]
        = .ok [.tensorList [[2, 3], [1]] (some .float)] ∧
      Rule.listConstruct.infer [.scalar 4 .int64, .tensor [2, 3] (some .float)]
        = refuse (.typeMismatch "int" "tensor") :=
  ⟨rfl, rfl⟩

open Listing ValueInfo in
/-- UNPACKED: tensors that are packed into a list and taken out of it again have their shapes and the
    type of the first one, so they are what they were exactly if all of them have that type. A list of
    tensors that is taken apart and packed again is what it was. It is only taken apart into as many
    tensors as it has shapes. -/
theorem Rule.infer_listConstruct_unpack :
    (∀ (x : ValueInfo) (rest : List ValueInfo), (∀ y ∈ x :: rest, y.IsTensor) →
      (do
        let list ← Rule.listConstruct.infer (x :: rest)
        (Rule.listUnpack (x :: rest).length).infer list)
          = .ok ((x :: rest).map (·.withElem x.elem)) ∧
      ((do
        let list ← Rule.listConstruct.infer (x :: rest)
        (Rule.listUnpack (x :: rest).length).infer list) = .ok (x :: rest) ↔
          ∀ y ∈ x :: rest, y.elem = x.elem)) ∧
    ∀ (list : ValueInfo) (shapes : List Dims), list.asTensorList = .ok shapes →
      (shapes ≠ [] → (do
        let parts ← (Rule.listUnpack shapes.length).infer [list]
        Rule.listConstruct.infer parts) = .ok [list]) ∧
      ∀ count, count ≠ shapes.length →
        (Rule.listUnpack count).infer [list] = refuse (.outputCount count shapes.length) := by
  constructor
  · intro x rest h
    have hmade := unpack_construct h
    refine ⟨hmade, ?_⟩
    simp only [infer, hmade, Except.ok.injEq]
    exact map_withElem_eq_self_iff
  · intro list shapes h
    refine ⟨construct_unpack h, fun count hcount => ?_⟩
    rw [infer, unpack_eq h, if_pos hcount.symm]

/-- Two tensors of two types, which come back under the first one; a list of two shapes, which comes back
    unchanged and is not taken apart into three. -/
theorem Rule.infer_listConstruct_unpack_types :
    ((do
        let list ← Rule.listConstruct.infer [.tensor [2, 3] (some .float), .tensor [4] (some .half)]
        (Rule.listUnpack 2).infer list)
          = .ok [.tensor [2, 3] (some .float), .tensor [4] (some .float)] ∧
      (do
        let list ← Rule.listConstruct.infer [.tensor [2, 3] (some .float), .tensor [4] (some .half)]
        (Rule.listUnpack 2).infer list)
          ≠ .ok [.tensor [2, 3] (some .float), .tensor [4] (some .half)]) ∧
    (do
        let parts ← (Rule.listUnpack 2).infer [.tensorList [[2, 3], [4]] (some .half)]
        Rule.listConstruct.infer parts) = .ok [.tensorList [[2, 3], [4]] (some .half)] ∧
      (Rule.listUnpack 3).infer [.tensorList [[2, 3], [4]] (some .half)] = refuse (.outputCount 3 2) := by
  have htensors : ∀ y ∈ [ValueInfo.tensor [2, 3] (some .float), .tensor [4] (some .half)],
      y.IsTensor := by
    simp [ValueInfo.IsTensor, ValueInfo.tensor]
  obtain ⟨hmade, hsame⟩ := Rule.infer_listConstruct_unpack.1 _ _ htensors
  obtain ⟨hback, hcount⟩ := Rule.infer_listConstruct_unpack.2 _ _
    (ValueInfo.asTensorList_tensorList [[2, 3], [4]] (some .half))
  exact ⟨⟨hmade, mt hsame.1 (by decide)⟩, hback (by decide), hcount 3 (by decide)⟩

end ShapeFlow
