import ShapeFlow.Proofs.Rule.Joining

/-! Tensors stacked along a new axis. The tensors have one shape, and the result is that shape with their
    number inserted at a position. A list names the position by the axes that its tensors have, and the
    fused form by those of the result, which has one more. So from 0 on a number means the same in
    both, a negative one is one further from the back in the fused form, and the place behind all
    axes is named by the fused form alone. A new axis of size 1 in each of the tensors takes the
    place of the inserted number: joined along it, the sizes add up to the number of the tensors. -/

namespace ShapeFlow

/-! ### One more dim -/

/-- From 0 on a number names the same position if there is one more dim. -/
theorem Axis.resolve_succ_of_nonneg {rank : Nat} {axis : Int} (hr : (rank : Int) < Word.greatest)
    (hlo : 0 ≤ axis) (hhi : axis < rank) : resolve (rank + 1) axis = resolve rank axis := by
  rw [resolve_of_mem hr.le ⟨by omega, hhi⟩, resolve_of_mem (by omega) ⟨by omega, by omega⟩,
    if_pos hlo, if_pos hlo]

/-- A negative number has to be one less if there is one more dim. -/
theorem Axis.resolve_succ_of_neg {rank : Nat} {axis : Int} (hr : (rank : Int) < Word.greatest)
    (hlo : -rank ≤ axis) (hhi : axis < 0) : resolve (rank + 1) (axis - 1) = resolve rank axis := by
  rw [resolve_of_mem hr.le ⟨hlo, by omega⟩, resolve_of_mem (by omega) ⟨by omega, by omega⟩,
    if_neg (by omega), if_neg (by omega)]
  congr 2
  omega

namespace Dims

variable {dims whole : Dims} {i : Nat} {size : Int}

/-- A shape with one more dim is known by that dim and by what is left without it. -/
theorem eq_insertIdx_iff (hi : i ≤ dims.length) :
    whole = dims.insertIdx i size ↔ whole.eraseIdx i = dims ∧ whole[i]? = some size := by
  constructor
  · rintro rfl
    exact ⟨List.eraseIdx_insertIdx_self size, by rw [List.getElem?_insertIdx_self, if_pos hi]⟩
  · rintro ⟨rfl, hsize⟩
    obtain ⟨hlt, rfl⟩ := List.getElem?_eq_some_iff.1 hsize
    exact (List.insertIdx_eraseIdx_getElem hlt).symm

theorem getD_insertIdx_self (hi : i ≤ dims.length) (size : Int) :
    (dims.insertIdx i size).getD i 0 = size := by
  rw [List.getD_eq_getElem?_getD, List.getElem?_insertIdx_self, if_pos hi, Option.getD_some]

/-- The inserted size can be replaced. -/
theorem set_insertIdx_self (hi : i ≤ dims.length) (size other : Int) :
    (dims.insertIdx i size).set i other = dims.insertIdx i other := by
  have hne : i ≠ (dims.insertIdx i size).length := by
    rw [List.length_insertIdx_of_le_length hi]
    omega
  rw [← List.insertIdx_eraseIdx_self hne, List.eraseIdx_insertIdx_self]

end Dims

/-! ### Stacking -/

namespace Stack

variable {x axis list : ValueInfo} {rest : List ValueInfo} {first other whole : Dims}
  {others : List Dims} {position : Nat} {d : Int}

/-- The first shape that differs from the one in front is refused. -/
theorem shapes_of_find? (h : others.find? (· ≠ first) = some other) :
    shapes (first :: others) position = refuse (.incompatibleShapes (.stack first other)) := by
  rw [shapes, h]

theorem shapes_of_alike (h : ∀ other ∈ others, other = first) (hle : position ≤ first.length) :
    shapes (first :: others) position = .ok (first.insertIdx position (others.length + 1)) := by
  have hnone : others.find? (· ≠ first) = none := by simpa using h
  rw [shapes, hnone, List.length_cons, Nat.cast_succ]
  exact Dims.insertAt_of_le _ hle

theorem shapes_ok_iff (hle : position ≤ first.length) :
    shapes (first :: others) position = .ok whole ↔
      (∀ other ∈ others, other = first) ∧ whole = first.insertIdx position (others.length + 1) := by
  cases hfind : others.find? (· ≠ first) with
  | some other =>
    have hdiffers : other ∈ others ∧ other ≠ first :=
      ⟨List.mem_of_find?_eq_some hfind, by simpa using List.find?_some hfind⟩
    rw [shapes_of_find? hfind]
    exact iff_of_false (by simp [refuse]) fun h => hdiffers.2 (h.1 other hdiffers.1)
  | none =>
    have halike : ∀ other ∈ others, other = first := by simpa using hfind
    rw [shapes_of_alike halike hle, Except.ok.injEq, eq_comm]
    exact (and_iff_right halike).symm

/-- The shape of values stacked at a position: without the new axis it is the shape that each of them has,
    and along the new axis there is one entry for each. -/
structure Layered (position : Nat) (xs : List ValueInfo) (whole : Dims) : Prop where
  alike : ∀ x ∈ xs, x.asTensor = .ok (whole.eraseIdx position)
  size : whole[position]? = some (xs.length : Int)

theorem shapes_ok_iff_layered (hp : (x :: rest).mapM ValueInfo.asTensor = .ok (first :: others))
    (hle : position ≤ first.length) :
    shapes (first :: others) position = .ok whole ↔ Layered position (x :: rest) whole := by
  have hlength : others.length = rest.length := by
    simpa using Ensures.mapM ValueInfo.asTensor (x :: rest) _ hp
  have halike : (∀ other ∈ first :: others, other = whole.eraseIdx position) ↔
      ∀ y ∈ x :: rest, y.asTensor = .ok (whole.eraseIdx position) :=
    (Outcome.forall_ok_iff hp).symm
  rw [shapes_ok_iff hle, Dims.eq_insertIdx_iff hle, hlength]
  constructor
  · rintro ⟨hsame, rfl, hsize⟩
    refine ⟨halike.1 (List.forall_mem_cons.2 ⟨rfl, hsame⟩), ?_⟩
    rw [hsize, List.length_cons, Nat.cast_succ]
  · intro h
    obtain ⟨hfirst, hothers⟩ := List.forall_mem_cons.1 (halike.2 h.alike)
    refine ⟨fun other ho => (hothers other ho).trans hfirst.symm, hfirst.symm, ?_⟩
    rw [h.size, List.length_cons, Nat.cast_succ]

/-! ### The two ways to name the axis -/

/-- Shapes stacked along the axis that a number names among so many. -/
def along (rank : Nat) (dim : Int) (parts : List Dims) (elem : Option ElemType) :
    Outcome (List ValueInfo) := do
  let position ← Axis.resolve rank dim
  let dims ← shapes parts position
  pure [.tensor dims elem]

/-- A list names the axis among those that its tensors have. -/
theorem stack_eq (hp : list.asTensorList = .ok (first :: others)) (hd : axis.asInt = .ok d) :
    stack [list, axis] = along first.length d (first :: others) list.elem := by
  simp only [stack, along, Operands.two, pure_bind, hp, hd, Outcome.ok_bind]

/-- The fused form names it among those of the result. -/
theorem fusedStack_eq (dim : Int) (hx : x.asTensor = .ok first) (hne : rest ≠ []) :
    fusedStack dim (x :: rest) = (do
      let others ← rest.mapM ValueInfo.asTensor
      along (first.length + 1) dim (first :: others) x.elem) := by
  obtain ⟨y, rest, rfl⟩ := List.exists_cons_of_ne_nil hne
  simp only [fusedStack, along, Operands.oneOrMore, pure_bind, hx, Outcome.ok_bind]

theorem fusedStack_of_shapes (dim : Int) (hne : rest ≠ [])
    (hp : (x :: rest).mapM ValueInfo.asTensor = .ok (first :: others)) :
    fusedStack dim (x :: rest) = along (first.length + 1) dim (first :: others) x.elem := by
  obtain ⟨hx, hothers⟩ := List.forall₂_cons.1 (Outcome.mapM_ok_iff.1 hp)
  rw [fusedStack_eq dim hx hne, Outcome.mapM_ok_iff.2 hothers, Outcome.ok_bind]

/-- Packing reads the same shapes. -/
theorem construct_eq (rest : List ValueInfo) (hx : x.asTensor = .ok first)
    (hsingle : x.isSingle = false) :
    Listing.construct (x :: rest) = (do
      let others ← rest.mapM ValueInfo.asTensor
      pure [.tensorList (first :: others) x.elem]) := by
  rw [Listing.construct_of_not_isSingle rest hsingle, List.mapM_cons, hx]
  simp only [Outcome.ok_bind, bind_assoc, pure_bind]

/-- Where the rank leaves room for the new axis, the number names where the values are stacked. -/
theorem along_ok_iff {rank : Nat} {dim : Int} {elem : Option ElemType} {made : List ValueInfo}
    (hp : (x :: rest).mapM ValueInfo.asTensor = .ok (first :: others))
    (hr : (rank : Int) ≤ Word.greatest) (hroom : rank ≤ first.length + 1) :
    along rank dim (first :: others) elem = .ok made ↔
      ∃ (position : Nat) (whole : Dims), (position < rank ∧ (dim = position ∨ dim = position - rank)) ∧
        Layered position (x :: rest) whole ∧ made = [.tensor whole elem] := by
  simp only [along, Outcome.bind_ok_iff, Axis.resolve_ok_iff hr]
  refine exists_congr fun position => ?_
  constructor
  · rintro ⟨hnames, whole, hwhole, hmade⟩
    cases hmade
    exact ⟨whole, hnames, (shapes_ok_iff_layered hp (by omega)).1 hwhole, rfl⟩
  · rintro ⟨whole, hnames, hwhole, rfl⟩
    exact ⟨hnames, whole, (shapes_ok_iff_layered hp (by omega)).2 hwhole, rfl⟩

end Stack

open Stack in
/-- STACKED: values behind a tensor are stacked from a list as they are one by one. Where they cannot be
    packed into a list, the fused form is refused alike. Else a number of the list's axes from 0 on
    is the same number for the fused form, a negative one is one less there, and no other number is
    taken for a list; results and refusals are equal. Either form succeeds exactly if the number names
    a position and the values have one shape, and the result has that shape around the new axis, which
    has an entry for each value. -/
theorem Rule.infer_listConstruct_stack {x axis : ValueInfo} {rest : List ValueInfo} {first : Dims}
    {d : Int} (hx : x.asTensor = .ok first) (hpayload : ∀ value, x.payload? ≠ some [value])
    (hne : rest ≠ []) (hr : (first.length : Int) < Word.greatest) (hd : axis.asInt = .ok d) :
    (∀ halt, Rule.listConstruct.infer (x :: rest) = .error halt →
      ∀ dim, (Rule.fusedStack dim).infer (x :: rest) = .error halt) ∧
    ∀ list, Rule.listConstruct.infer (x :: rest) = .ok list →
      (0 ≤ d → d < first.length →
        Rule.stack.infer (list ++ [axis]) = (Rule.fusedStack d).infer (x :: rest)) ∧
      (-first.length ≤ d → d < 0 →
        Rule.stack.infer (list ++ [axis]) = (Rule.fusedStack (d - 1)).infer (x :: rest)) ∧
      (d < -first.length ∨ first.length ≤ d →
        Rule.stack.infer (list ++ [axis]) = refuse (.invalidValue (.axisRange d first.length))) ∧
      (∀ made, Rule.stack.infer (list ++ [axis]) = .ok made ↔
        ∃ (position : Nat) (whole : Dims),
          (position < first.length ∧ (d = position ∨ d = position - first.length)) ∧
          Layered position (x :: rest) whole ∧ made = [.tensor whole x.elem]) ∧
      ∀ dim made, (Rule.fusedStack dim).infer (x :: rest) = .ok made ↔
        ∃ (position : Nat) (whole : Dims),
          (position ≤ first.length ∧ (dim = position ∨ dim = position - (first.length + 1))) ∧
          Layered position (x :: rest) whole ∧ made = [.tensor whole x.elem] := by
  have hlisted := construct_eq rest hx (x.isSingle_eq_false_iff.2 hpayload)
  cases hothers : rest.mapM ValueInfo.asTensor with
  | error halt =>
    rw [hothers, Outcome.error_bind] at hlisted
    constructor
    · intro halt' h dim
      cases hlisted.symm.trans h
      rw [infer, fusedStack_eq dim hx hne, hothers, Outcome.error_bind]
    · intro list h
      cases hlisted.symm.trans h
  | ok others =>
    rw [hothers, Outcome.ok_bind] at hlisted
    have hp : (x :: rest).mapM ValueInfo.asTensor = .ok (first :: others) := by
      rw [List.mapM_cons, hx, Outcome.ok_bind, hothers]
      rfl
    have hfused (dim : Int) : (Rule.fusedStack dim).infer (x :: rest)
        = along (first.length + 1) dim (first :: others) x.elem :=
      fusedStack_of_shapes dim hne hp
    constructor
    · intro halt h
      cases hlisted.symm.trans h
    · intro list h
      cases hlisted.symm.trans h
      have hstack : Rule.stack.infer ([.tensorList (first :: others) x.elem] ++ [axis])
          = along first.length d (first :: others) x.elem := stack_eq rfl hd
      simp only [hstack, hfused]
      refine ⟨fun hlo hhi => ?_, fun hlo hhi => ?_, fun hout => ?_, fun made => ?_, fun dim made => ?_⟩
      · rw [along, along, Axis.resolve_succ_of_nonneg hr hlo hhi]
      · rw [along, along, Axis.resolve_succ_of_neg hr hlo hhi]
      · rw [along, Axis.resolve_of_not_mem hr.le (by omega)]
        rfl
      · exact along_ok_iff hp hr.le (Nat.le_succ _)
      · rw [along_ok_iff hp (by omega) le_rfl]
        simp only [Nat.lt_succ_iff, Nat.cast_succ]

/-- Four matrices of three columns, stacked in front of the last axis; the place behind both axes, which the
    list has no number for; and a list among the operands. -/
theorem Rule.infer_listConstruct_stack_columns :
    (Rule.stack.infer [.tensorList [[2, 3], [2, 3], [2, 3], [2, 3]] (some .half), .scalar (-1) .int64]
        = (Rule.fusedStack (-2)).infer (.tensor [2, 3] (some .half)
          :: List.replicate 3 (.tensor [2, 3] none)) ∧
      (Rule.fusedStack (-2)).infer (.tensor [2, 3] (some .half)
          :: List.replicate 3 (.tensor [2, 3] none)) = .ok [.tensor [2, 4, 3] (some .half)]) ∧
    Rule.stack.infer [.tensorList [[2, 3], [2, 3], [2, 3], [2, 3]] (some .half), .scalar 2 .int64]
        = refuse (.invalidValue (.axisRange 2 2)) ∧
    (Rule.fusedStack 9).infer [.tensor [2, 3] none, .tensorList [[2, 3]] none]
        = refuse (.typeMismatch "tensor" "tensor list") := by
  have hall (d : Int) := Rule.infer_listConstruct_stack
    (ValueInfo.asTensor_tensor [2, 3] (some .half)) (by rintro _ ⟨⟩)
    (List.cons_ne_nil (.tensor [2, 3] none) (List.replicate 2 (.tensor [2, 3] none))) (by decide)
    (ValueInfo.asInt_scalar d .int64)
  have hsame := ((hall (-1)).2 _ rfl).2.1 (by decide) (by decide)
  have hmade := (((hall (-1)).2 _ rfl).2.2.2.2 (-2) _).2
    ⟨1, [2, 4, 3], by decide, ⟨by decide, by decide⟩, rfl⟩
  refine ⟨⟨hsame, hmade⟩, ((hall 2).2 _ rfl).2.2.1 (.inr (by decide)), ?_⟩
  exact (Rule.infer_listConstruct_stack (ValueInfo.asTensor_tensor [2, 3] none) (by rintro _ ⟨⟩)
    (List.cons_ne_nil (.tensorList [[2, 3]] none) []) (by decide)
    (ValueInfo.asInt_scalar 0 .int64)).1 _ rfl 9

/-! ### New axes joined -/

/-- The tensor with a new dim of size 1 at a position, if it has that many dims. -/
def ValueInfo.widen (position : Nat) (x : ValueInfo) : ValueInfo :=
  match x.extent with
  | .tensor dims => .tensor (dims.insertIdx position 1) x.elem
  | .list _ => x

@[simp] theorem ValueInfo.elem_widen (position : Nat) (x : ValueInfo) :
    (x.widen position).elem = x.elem := by
  unfold widen
  split
  · rfl
  · rfl

/-- Widened tensors have widened shapes. -/
theorem ValueInfo.mapM_asTensor_widen {xs : List ValueInfo} {parts : List Dims} (position : Nat)
    (h : xs.mapM asTensor = .ok parts) :
    (xs.map (·.widen position)).mapM asTensor
      = .ok (parts.map fun dims => dims.insertIdx position 1) := by
  rw [Outcome.mapM_ok_iff] at h ⊢
  rw [List.forall₂_map_left_iff, List.forall₂_map_right_iff]
  refine h.imp fun x dims hx => ?_
  cases he : x.extent with
  | tensor dims' =>
    simp only [asTensor, he] at hx
    cases hx
    simp only [widen, he, asTensor_tensor]
  | list shapes =>
    simp only [asTensor, he] at hx
    cases hx

namespace Concat

variable {first other joined : Dims} {others front back : List Dims} {axis : Nat}

/-- Shapes that differ cannot be joined along a new axis either. -/
theorem joinable_insertIdx_iff {size : Int} :
    Joinable axis (first.insertIdx axis size) (other.insertIdx axis size) ↔ other = first := by
  constructor
  · intro h
    simpa only [List.eraseIdx_insertIdx_self] using h.2
  · rintro rfl
    exact ⟨rfl, rfl⟩

/-- Copies of a shape that has one entry along the axis are joined to as many entries. -/
theorem foldlM_extend_copies (ha : axis < first.length) (hone : first.getD axis 0 = 1)
    (hsame : ∀ other ∈ others, other = first) (hfits : (others.length + 1 : Int) ≤ Word.greatest) :
    others.foldlM (extend first axis) first = .ok (first.set axis (others.length + 1)) := by
  have hjoin : ∀ other ∈ others, Joinable axis first other := fun other ho => by
    rw [hsame other ho]
    exact ⟨rfl, rfl⟩
  have hsize : ∀ other ∈ others, other.getD axis 0 = 1 := fun other ho => by rw [hsame other ho, hone]
  have hsum : (others.map fun dims => dims.getD axis 0).sum = others.length := by
    rw [List.map_congr_left hsize, List.map_const', List.sum_replicate]
    simp
  have hfold := foldlM_extend_eq ha rfl hjoin (fun other ho => by rw [hsize other ho]; decide)
    (by rw [hone]; decide) (by rw [hone, hsum]; exact ⟨by rw [Word.least]; omega, by omega⟩)
  rwa [hone, hsum, Int.add_comm] at hfold

/-- Joining is refused at the first shape that cannot be joined. -/
theorem foldlM_extend_refused {start : Dims} (hfront : front.foldlM (extend first axis) start = .ok joined)
    (hother : ¬ Joinable axis first other) :
    (front ++ other :: back).foldlM (extend first axis) start
      = refuse (.incompatibleShapes (.concat first other axis)) := by
  rw [List.foldlM_append, hfront, Outcome.ok_bind, List.foldlM_cons, extend, if_neg hother]
  rfl

section Widened

variable (hr : (first.length : Int) < Word.greatest) (hle : axis ≤ first.length)
  (hcount : (others.length + 1 : Int) ≤ Word.greatest)
include hr hle

/-- The widened shapes are joined along the new axis, which the first of them has. -/
theorem shapes_widened (others : List Dims) :
    shapes ((first :: others).map fun dims => dims.insertIdx axis 1) axis
      = (others.map fun dims => dims.insertIdx axis 1).foldlM (extend (first.insertIdx axis 1) axis)
          (first.insertIdx axis 1) := by
  have hlength := List.length_insertIdx_of_le_length hle (1 : Int)
  rw [List.map_cons]
  exact shapes_of_resolve (Axis.resolve_eq (by omega) (by omega) (.inl rfl))

include hcount

/-- Copies of a shape have their number along the new axis. -/
theorem shapes_widened_of_alike (h : ∀ other ∈ others, other = first) :
    shapes ((first :: others).map fun dims => dims.insertIdx axis 1) axis
      = .ok (first.insertIdx axis (others.length + 1)) := by
  have hlength := List.length_insertIdx_of_le_length hle (1 : Int)
  have hsame : ∀ other ∈ others.map fun dims => dims.insertIdx axis 1,
      other = first.insertIdx axis 1 := List.forall_mem_map.2 fun other ho => by rw [h other ho]
  rw [shapes_widened hr hle, foldlM_extend_copies (by omega) (Dims.getD_insertIdx_self hle 1) hsame
    (by rwa [List.length_map]), List.length_map, Dims.set_insertIdx_self hle]

/-- The first shape that differs is refused, after the copies in front of it are joined. -/
theorem shapes_widened_of_find? (h : others.find? (· ≠ first) = some other) :
    shapes ((first :: others).map fun dims => dims.insertIdx axis 1) axis
      = refuse (.incompatibleShapes
          (.concat (first.insertIdx axis 1) (other.insertIdx axis 1) axis)) := by
  obtain ⟨hdiffers, front, back, rfl, hfront⟩ := List.find?_eq_some_iff_append.1 h
  have hcopies : ∀ other ∈ front, other = first := by simpa using hfront
  have hcount' : (front.length + 1 : Int) ≤ Word.greatest := by
    rw [List.length_append] at hcount
    omega
  have hjoined := shapes_widened_of_alike hr hle hcount' hcopies
  rw [shapes_widened hr hle] at hjoined ⊢
  rw [List.map_append, List.map_cons]
  exact foldlM_extend_refused hjoined (mt joinable_insertIdx_iff.1 (by simpa using hdiffers))

end Widened

end Concat

open Stack Concat in
/-- WIDENED: two tensors and more are stacked at a position as they are joined along it once each of them
    has a new axis of size 1 there. Both come to the same tensor; or both are refused, and for the
    same tensor, the first one whose shape is not that of the one in front. -/
theorem Rule.infer_fusedStack_concat {x : ValueInfo} {rest : List ValueInfo} {first : Dims}
    {others : List Dims} {dim : Int} {position : Nat}
    (hp : (x :: rest).mapM ValueInfo.asTensor = .ok (first :: others)) (hne : rest ≠ [])
    (hcount : ((x :: rest).length : Int) ≤ Word.greatest) (hr : (first.length : Int) < Word.greatest)
    (hle : position ≤ first.length) (hnames : dim = position ∨ dim = position - (first.length + 1)) :
    (∀ made, (Rule.fusedStack dim).infer (x :: rest) = .ok made ↔
      (Rule.fusedConcat position).infer ((x :: rest).map (·.widen position)) = .ok made) ∧
    ((∃ made, (Rule.fusedStack dim).infer (x :: rest) = .ok made) ∨
      ∃ other ∈ others,
        (Rule.fusedStack dim).infer (x :: rest) = refuse (.incompatibleShapes (.stack first other)) ∧
        (Rule.fusedConcat position).infer ((x :: rest).map (·.widen position))
          = refuse (.incompatibleShapes
            (.concat (first.insertIdx position 1) (other.insertIdx position 1) position))) := by
  have hlength : others.length = rest.length := by
    simpa using Ensures.mapM ValueInfo.asTensor (x :: rest) _ hp
  rw [List.length_cons, ← hlength, Nat.cast_succ] at hcount
  have hresolve : Axis.resolve (first.length + 1) dim = .ok position :=
    Axis.resolve_eq (by omega) (by omega) (by simpa using hnames)
  have hstack : (Rule.fusedStack dim).infer (x :: rest) = (do
      let dims ← Stack.shapes (first :: others) position
      pure [.tensor dims x.elem]) := by
    rw [infer, fusedStack_of_shapes dim hne hp, along, hresolve, Outcome.ok_bind]
  have hconcat : (Rule.fusedConcat position).infer ((x :: rest).map (·.widen position)) = (do
      let dims ← Concat.shapes ((first :: others).map fun dims => dims.insertIdx position 1) position
      pure [.tensor dims x.elem]) := by
    have hwide := ValueInfo.mapM_asTensor_widen position hp
    rw [List.map_cons] at hwide ⊢
    rw [infer, fusedConcat_eq _ hwide, ValueInfo.elem_widen]
  rw [hstack, hconcat]
  cases hfind : others.find? (· ≠ first) with
  | none =>
    have halike : ∀ other ∈ others, other = first := by simpa using hfind
    rw [shapes_of_alike halike hle, shapes_widened_of_alike hr hle hcount halike]
    exact ⟨fun made => Iff.rfl, .inl ⟨_, rfl⟩⟩
  | some other =>
    rw [shapes_of_find? hfind, shapes_widened_of_find? hr hle hcount hfind]
    refine ⟨fun made => iff_of_false (fun h => ?_) fun h => ?_,
      .inr ⟨other, List.mem_of_find?_eq_some hfind, rfl, rfl⟩⟩
    · cases h
    · cases h

/-- Three rows of five beside each other, and a column among rows. -/
theorem Rule.infer_fusedStack_concat_rows :
    (Rule.fusedConcat 1).infer [.tensor [2, 1, 5] (some .float), .tensor [2, 1, 5] none,
        .tensor [2, 1, 5] none] = .ok [.tensor [2, 3, 5] (some .float)] ∧
    (Rule.fusedStack (-2)).infer [.tensor [2, 5] none, .tensor [2, 5] none, .tensor [5, 2] none]
        = refuse (.incompatibleShapes (.stack [2, 5] [5, 2])) ∧
      (Rule.fusedConcat 1).infer [.tensor [2, 1, 5] none, .tensor [2, 1, 5] none,
        .tensor [5, 1, 2] none]
        = refuse (.incompatibleShapes (.concat [2, 1, 5] [5, 1, 2] 1)) := by
  have hrows : [ValueInfo.tensor [2, 5] (some .float), .tensor [2, 5] none, .tensor [2, 5] none].mapM
      ValueInfo.asTensor = .ok [[2, 5], [2, 5], [2, 5]] := rfl
  have hcolumn : [ValueInfo.tensor [2, 5] none, .tensor [2, 5] none, .tensor [5, 2] none].mapM
      ValueInfo.asTensor = .ok [[2, 5], [2, 5], [5, 2]] := rfl
  -- both name position 1, the fused form from the back
  have hnames : (-2 : Int) = (1 : Nat) ∨ (-2 : Int) = (1 : Nat) - (2 + 1) := by decide
  constructor
  · exact ((Rule.infer_fusedStack_concat hrows (by simp) (by decide) (by decide) (by decide)
      hnames).1 _).1 rfl
  · obtain ⟨made, h⟩ | ⟨other, hother, hstack, hconcat⟩ := (Rule.infer_fusedStack_concat hcolumn
      (by simp) (by decide) (by decide) (by decide) hnames).2
    · cases h
    · cases hstack
      exact ⟨rfl, hconcat⟩

end ShapeFlow
