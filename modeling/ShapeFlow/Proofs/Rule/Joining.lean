import ShapeFlow.Proofs.Rule.Listing
import ShapeFlow.Proofs.Rule.Proper

/-! Tensors joined along an axis. Off the axis all shapes that are joined are alike, and at the axis their
    sizes are added up. Both can be said of the whole and its parts without an order in which the
    parts are taken in, so a list of parts can be cut anywhere and each half joined on its own. The
    number of the axis is read at the first shape and, for a single one, not at all; but the halves
    can only be joined if they have the rank of the whole, and then it names one axis in all three. -/

namespace ShapeFlow

theorem Dims.Nonneg.getD {dims : Dims} (h : dims.Nonneg) (i : Nat) : 0 ≤ dims.getD i 0 := by
  rw [List.getD_eq_getElem?_getD]
  cases hi : dims[i]? with
  | none => exact Int.le_refl 0
  | some size => exact h size (List.mem_of_getElem? hi)

namespace Concat

variable {axis : Nat} {first other third whole : Dims} {front back parts rest : List Dims} {dim : Int}

/-! ### Shapes that are alike off an axis -/

theorem joinable_iff :
    Joinable axis first other ↔
      other.length = first.length ∧ ∀ i, i ≠ axis → other[i]? = first[i]? := by
  refine and_congr_right fun hlength => ⟨fun h i hi => ?_, fun h => ?_⟩
  · have hat (k : Nat) : (other.eraseIdx axis)[k]? = (first.eraseIdx axis)[k]? := by rw [h]
    simp only [List.getElem?_eraseIdx] at hat
    rcases Nat.lt_or_gt_of_ne hi with hlt | hgt
    · simpa [hlt] using hat i
    · have hprev : ¬ i - 1 < axis := by omega
      have hnext : i - 1 + 1 = i := by omega
      simpa [hprev, hnext] using hat (i - 1)
  · refine List.ext_getElem? fun k => ?_
    simp only [List.getElem?_eraseIdx]
    split
    · exact h k (by omega)
    · exact h (k + 1) (by omega)

theorem Joinable.symm (h : Joinable axis first other) : Joinable axis other first :=
  ⟨h.1.symm, h.2.symm⟩

theorem Joinable.trans (h : Joinable axis first other) (h' : Joinable axis other third) :
    Joinable axis first third := ⟨h'.1.trans h.1, h'.2.trans h.2⟩

/-- A shape can be joined with itself under another size at the axis. -/
theorem joinable_set_right (dims : Dims) (axis : Nat) (size : Int) :
    Joinable axis dims (dims.set axis size) := by
  have h := joinable_set dims axis (dims.getD axis 0) size
  rwa [Dims.set_getD_self] at h

/-- Shapes that are alike off the axis and have the same size at it are equal. -/
theorem Joinable.eq_of_getD (h : Joinable axis first other)
    (hsize : other.getD axis 0 = first.getD axis 0) : other = first := by
  obtain ⟨hlength, hoff⟩ := joinable_iff.1 h
  refine List.ext_getElem hlength fun i hi hi' => ?_
  by_cases hat : i = axis
  · subst hat
    simpa [hi, hi'] using hsize
  · have hsame := hoff i hat
    rwa [List.getElem?_eq_getElem hi, List.getElem?_eq_getElem hi', Option.some.injEq] at hsame

/-! ### Sums -/

/-- The sizes of all shapes at an axis, added up. -/
def total (axis : Nat) (parts : List Dims) : Int := (parts.map fun dims => dims.getD axis 0).sum

@[simp] theorem total_nil (axis : Nat) : total axis [] = 0 := rfl

@[simp] theorem total_cons (axis : Nat) (first : Dims) (rest : List Dims) :
    total axis (first :: rest) = first.getD axis 0 + total axis rest := rfl

@[simp] theorem total_append (axis : Nat) (front back : List Dims) :
    total axis (front ++ back) = total axis front + total axis back := by
  rw [total, List.map_append, List.sum_append]
  rfl

/-- Shapes that can be joined along any axis whatever within the words: no size is negative, and at each
    axis all of them together are a word. -/
structure Addable (parts : List Dims) : Prop where
  nonneg : ∀ dims ∈ parts, dims.Nonneg
  fits : ∀ axis, total axis parts ≤ Word.greatest

theorem total_nonneg (hn : ∀ dims ∈ parts, dims.Nonneg) (axis : Nat) : 0 ≤ total axis parts :=
  List.sum_nonneg (List.forall_mem_map.2 fun dims hd => (hn dims hd).getD axis)

/-- It is enough that all sizes there are add up to a word. -/
theorem Addable.of_flatten (hn : ∀ dims ∈ parts, dims.Nonneg)
    (hsum : parts.flatten.sum ≤ Word.greatest) : Addable parts := by
  refine ⟨hn, fun axis => ?_⟩
  calc total axis parts ≤ (parts.map List.sum).sum := List.sum_le_sum fun dims hd => ?_
    _ = parts.flatten.sum := List.sum_flatten.symm
    _ ≤ Word.greatest := hsum
  rw [List.getD_eq_getElem?_getD]
  cases hi : dims[axis]? with
  | none => exact List.sum_nonneg (hn dims hd)
  | some size => exact List.single_le_sum (hn dims hd) size (List.mem_of_getElem? hi)

theorem Addable.of_append (h : Addable (front ++ back)) : Addable front ∧ Addable back := by
  have hfront : ∀ dims ∈ front, dims.Nonneg := fun dims hd => h.nonneg dims (by simp [hd])
  have hback : ∀ dims ∈ back, dims.Nonneg := fun dims hd => h.nonneg dims (by simp [hd])
  have hfits (axis : Nat) : total axis front + total axis back ≤ Word.greatest :=
    total_append axis front back ▸ h.fits axis
  refine ⟨⟨hfront, fun axis => ?_⟩, hback, fun axis => ?_⟩
  · linarith [hfits axis, total_nonneg hback axis]
  · linarith [hfits axis, total_nonneg hfront axis]

theorem Addable.fits_total (h : Addable parts) (axis : Nat) : Word.Fits (total axis parts) :=
  ⟨Int.le_trans (by decide) (total_nonneg h.nonneg axis), h.fits axis⟩

/-- Addable shapes are joined without leaving the words. -/
theorem Addable.faultsOnly_shapes (h : Addable parts) (dim : Int) :
    FaultsOnly (fun _ => False) (shapes parts dim) := by
  refine (faultsOnly_shapes_sumLeaves parts dim).imp ?_
  rintro fault ⟨-, first, rest, axis, before, -, -, ⟨after, rfl⟩, hleaves⟩
  exact hleaves (h.of_append.1.fits_total axis)

/-! ### The whole and its parts -/

/-- The whole is like each of the parts off the axis, and their sum at the axis. -/
structure Joined (axis : Nat) (parts : List Dims) (whole : Dims) : Prop where
  inside : axis < whole.length
  alike : ∀ part ∈ parts, Joinable axis whole part
  sum : whole.getD axis 0 = total axis parts

/-- A list of parts can be cut in two, and each half joined on its own. -/
theorem joined_append_iff :
    Joined axis (front ++ back) whole ↔
      ∃ a b, Joined axis front a ∧ Joined axis back b ∧ Joined axis [a, b] whole := by
  constructor
  · intro h
    have hset (size : Int) : Joinable axis (whole.set axis size) whole :=
      (joinable_set_right whole axis size).symm
    have hsize (size : Int) : (whole.set axis size).getD axis 0 = size :=
      Dims.getD_set_self h.inside size
    have hinside (size : Int) : axis < (whole.set axis size).length := by
      rw [List.length_set]
      exact h.inside
    refine ⟨whole.set axis (total axis front), whole.set axis (total axis back),
      ⟨hinside _, fun part hp => (hset _).trans (h.alike part (by simp [hp])), hsize _⟩,
      ⟨hinside _, fun part hp => (hset _).trans (h.alike part (by simp [hp])), hsize _⟩,
      h.inside, ?_, ?_⟩
    · simp only [List.forall_mem_cons, List.not_mem_nil, false_implies, implies_true, and_true]
      exact ⟨(hset _).symm, (hset _).symm⟩
    · rw [h.sum, total_append, total_cons, total_cons, hsize, hsize, total_nil, Int.add_zero]
  · rintro ⟨a, b, ha, hb, h⟩
    refine ⟨h.inside, fun part hp => ?_, ?_⟩
    · rcases List.mem_append.1 hp with hp | hp
      · exact (h.alike a (by simp)).trans (ha.alike part hp)
      · exact (h.alike b (by simp)).trans (hb.alike part hp)
    · rw [h.sum, total_append, total_cons, total_cons, ha.sum, hb.sum, total_nil, Int.add_zero]

/-- The whole is the first part with the sum in place of its size at the axis. -/
theorem joined_cons_iff :
    Joined axis (first :: rest) whole ↔
      axis < first.length ∧ (∀ other ∈ rest, Joinable axis first other) ∧
        whole = first.set axis (total axis (first :: rest)) := by
  constructor
  · intro h
    have hfirst := h.alike first List.mem_cons_self
    have hinside : axis < first.length := by
      rw [hfirst.1]
      exact h.inside
    refine ⟨hinside, fun other ho => ?_, ?_⟩
    · exact hfirst.symm.trans (h.alike other (List.mem_cons_of_mem _ ho))
    · refine ((joinable_set_right first axis _).symm.trans hfirst.symm).eq_of_getD ?_
      rw [h.sum, Dims.getD_set_self hinside]
  · rintro ⟨hinside, halike, rfl⟩
    have hset := (joinable_set_right first axis (total axis (first :: rest))).symm
    refine ⟨by rwa [List.length_set], List.forall_mem_cons.2 ⟨hset, fun other ho => ?_⟩, ?_⟩
    · exact hset.trans (halike other ho)
    · exact Dims.getD_set_self hinside _

/-! ### Joining -/

/-- A number that names no axis of the first shape is refused, if there is a second one. -/
theorem shapes_of_resolve_error {halt : Halt} (hr : Axis.resolve first.length dim = .error halt)
    (hne : rest ≠ []) : shapes (first :: rest) dim = .error halt := by
  obtain ⟨second, rest, rfl⟩ := List.exists_cons_of_ne_nil hne
  rw [shapes_cons_cons, hr, Outcome.error_bind]

/-- The shapes behind the first one are taken in along the axis that the number names there. -/
theorem shapes_of_resolve (hr : Axis.resolve first.length dim = .ok axis) :
    shapes (first :: rest) dim = rest.foldlM (extend first axis) first := by
  cases rest with
  | nil => rfl
  | cons second rest => rw [shapes_cons_cons, hr, Outcome.ok_bind]

theorem joinable_of_foldlM_extend {joined : Dims}
    (h : rest.foldlM (extend first axis) joined = .ok whole) :
    ∀ other ∈ rest, Joinable axis first other := by
  induction rest generalizing joined with
  | nil => simp
  | cons other rest ih =>
    rw [List.foldlM_cons] at h
    obtain ⟨next, hnext, h⟩ := Outcome.bind_ok_iff.1 h
    refine List.forall_mem_cons.2 ⟨?_, ih h⟩
    rw [extend] at hnext
    split at hnext
    · next hjoin => exact hjoin
    · cases hnext

/-- Shapes come to the whole that they are the parts of. -/
theorem shapes_ok_iff (hadd : Addable (first :: rest))
    (hr : Axis.resolve first.length dim = .ok axis) :
    shapes (first :: rest) dim = .ok whole ↔ Joined axis (first :: rest) whole := by
  have hinside := Axis.lt_of_resolve hr
  have hfold (halike : ∀ other ∈ rest, Joinable axis first other) :
      rest.foldlM (extend first axis) first
        = .ok (first.set axis (total axis (first :: rest))) :=
    foldlM_extend_eq hinside rfl halike
      (fun other ho => (hadd.nonneg other (List.mem_cons_of_mem _ ho)).getD axis)
      ((hadd.nonneg first List.mem_cons_self).getD axis) (hadd.fits_total axis)
  rw [shapes_of_resolve hr, joined_cons_iff]
  constructor
  · intro h
    have halike := joinable_of_foldlM_extend h
    rw [hfold halike, Except.ok.injEq] at h
    exact ⟨hinside, halike, h.symm⟩
  · rintro ⟨-, halike, rfl⟩
    exact hfold halike

/-- The whole has the rank of the first shape, and at no axis more than all shapes together. -/
theorem bounds_of_shapes (hadd : Addable (first :: rest))
    (h : shapes (first :: rest) dim = .ok whole) :
    whole.length = first.length ∧ ∀ i, whole.getD i 0 ≤ total i (first :: rest) := by
  have hfirst (i : Nat) : first.getD i 0 ≤ total i (first :: rest) := by
    rw [total_cons]
    linarith [total_nonneg (fun dims hd => hadd.nonneg dims (List.mem_cons_of_mem first hd)) i]
  cases hr : Axis.resolve first.length dim with
  | error halt =>
    by_cases hne : rest = []
    · subst hne
      cases h
      exact ⟨rfl, hfirst⟩
    · rw [shapes_of_resolve_error hr hne] at h
      cases h
  | ok axis =>
    have hjoined := (shapes_ok_iff hadd hr).1 h
    obtain ⟨hlength, hoff⟩ := joinable_iff.1 (hjoined.alike first List.mem_cons_self)
    refine ⟨hlength.symm, fun i => ?_⟩
    by_cases hat : i = axis
    · rw [hat, hjoined.sum]
    · rw [List.getD_eq_getElem?_getD, ← hoff i hat, ← List.getD_eq_getElem?_getD]
      exact hfirst i

section Regroup

variable {second a b : Dims} {more : List Dims} (hadd : Addable ((first :: rest) ++ (second :: more)))
include hadd

/-- The wholes of two halves are no larger than their parts, so they can be joined as well. -/
theorem Addable.wholes (ha : shapes (first :: rest) dim = .ok a)
    (hb : shapes (second :: more) dim = .ok b) : Addable [a, b] := by
  obtain ⟨hfront, hback⟩ := hadd.of_append
  have hna : a.Nonneg := nonneg_shapes hfront.nonneg dim a ha
  have hnb : b.Nonneg := nonneg_shapes hback.nonneg dim b hb
  refine ⟨by simp [hna, hnb], fun i => ?_⟩
  have hall := hadd.fits i
  rw [total_append] at hall
  rw [total_cons, total_cons, total_nil]
  linarith [(bounds_of_shapes hfront ha).2 i, (bounds_of_shapes hback hb).2 i]

/-- Joining a list is joining the wholes of its two halves. -/
theorem shapes_append_ok_iff :
    shapes ((first :: rest) ++ (second :: more)) dim = .ok whole ↔
      (do
        let a ← shapes (first :: rest) dim
        let b ← shapes (second :: more) dim
        shapes [a, b] dim) = .ok whole := by
  obtain ⟨hfront, hback⟩ := hadd.of_append
  simp only [Outcome.bind_ok_iff]
  cases hr : Axis.resolve first.length dim with
  | error halt =>
    -- the first half may be a single shape, but then its whole meets the same number
    refine iff_of_false ?_ ?_
    · rw [List.cons_append, shapes_of_resolve_error hr (by simp)]
      simp
    · rintro ⟨a, ha, b, -, h⟩
      rw [← (bounds_of_shapes hfront ha).1] at hr
      rw [shapes_of_resolve_error hr (List.cons_ne_nil b [])] at h
      cases h
  | ok axis =>
    have hall : shapes ((first :: rest) ++ (second :: more)) dim = .ok whole ↔
        Joined axis ((first :: rest) ++ (second :: more)) whole := shapes_ok_iff hadd hr
    simp only [hall, joined_append_iff, exists_and_left, shapes_ok_iff hfront hr]
    refine exists_congr fun a => and_congr_right fun ha => exists_congr fun b => ?_
    have hra : Axis.resolve a.length dim = .ok axis := by
      rw [← (ha.alike first List.mem_cons_self).1, hr]
    have hmade : shapes (first :: rest) dim = .ok a := (shapes_ok_iff hfront hr).2 ha
    constructor
    · rintro ⟨hb, h⟩
      have hrb : Axis.resolve second.length dim = .ok axis := by
        rw [(hb.alike second List.mem_cons_self).1, (h.alike b (by simp)).1,
          ← (h.alike a (by simp)).1, hra]
      have hmade' := (shapes_ok_iff hback hrb).2 hb
      exact ⟨hmade', (shapes_ok_iff (hadd.wholes hmade hmade') hra).2 h⟩
    · rintro ⟨hmade', h⟩
      have hjoined := (shapes_ok_iff (hadd.wholes hmade hmade') hra).1 h
      have hrb : Axis.resolve second.length dim = .ok axis := by
        rw [← (bounds_of_shapes hback hmade').1, (hjoined.alike b (by simp)).1,
          ← (hjoined.alike a (by simp)).1, hra]
      exact ⟨(shapes_ok_iff hback hrb).1 hmade', hjoined⟩

/-- Joining the wholes of two halves does not leave the words either. -/
theorem faultsOnly_regroup (dim : Int) :
    FaultsOnly (fun _ => False) (do
      let a ← shapes (first :: rest) dim
      let b ← shapes (second :: more) dim
      shapes [a, b] dim) := by
  obtain ⟨hfront, hback⟩ := hadd.of_append
  refine .bind (hfront.faultsOnly_shapes dim) fun a ha => ?_
  refine .bind (hback.faultsOnly_shapes dim) fun b hb => ?_
  exact (hadd.wholes ha hb).faultsOnly_shapes dim

end Regroup

/-- Two shapes and more are joined if the number names an axis of the first and all are alike off it. -/
theorem shapes_many_ok_iff (hadd : Addable (first :: rest))
    (hr : (first.length : Int) ≤ Word.greatest) (hne : rest ≠ []) :
    shapes (first :: rest) dim = .ok whole ↔
      ∃ axis : Nat, (axis < first.length ∧ (dim = axis ∨ dim = axis - first.length)) ∧
        (∀ other ∈ rest, Joinable axis first other) ∧
        whole = first.set axis (total axis (first :: rest)) := by
  constructor
  · intro h
    cases hres : Axis.resolve first.length dim with
    | error halt =>
      rw [shapes_of_resolve_error hres hne] at h
      cases h
    | ok axis =>
      obtain ⟨-, halike, rfl⟩ := joined_cons_iff.1 ((shapes_ok_iff hadd hres).1 h)
      exact ⟨axis, (Axis.resolve_ok_iff hr).1 hres, halike, rfl⟩
  · rintro ⟨axis, hnames, halike, rfl⟩
    exact (shapes_ok_iff hadd ((Axis.resolve_ok_iff hr).2 hnames)).2
      (joined_cons_iff.2 ⟨hnames.1, halike, rfl⟩)

/-- Two tensors and more are joined as their shapes are, and come to one of the type of the first. -/
theorem fusedConcat_many_ok_iff {x : ValueInfo} {xs made : List ValueInfo}
    (hp : (x :: xs).mapM ValueInfo.asTensor = .ok (first :: rest)) (hadd : Addable (first :: rest))
    (hr : (first.length : Int) ≤ Word.greatest) (hne : rest ≠ []) :
    fusedConcat dim (x :: xs) = .ok made ↔
      ∃ axis : Nat, (axis < first.length ∧ (dim = axis ∨ dim = axis - first.length)) ∧
        (∀ other ∈ rest, Joinable axis first other) ∧
        made = [.tensor (first.set axis (total axis (first :: rest))) x.elem] := by
  rw [fusedConcat_eq dim hp, Outcome.bind_ok_iff]
  simp only [shapes_many_ok_iff hadd hr hne]
  constructor
  · rintro ⟨whole, ⟨axis, hnames, halike, rfl⟩, h⟩
    cases h
    exact ⟨axis, hnames, halike, rfl⟩
  · rintro ⟨axis, hnames, halike, rfl⟩
    exact ⟨_, ⟨axis, hnames, halike, rfl⟩, rfl⟩

/-- Joining what two joins came to, from the shapes of their operands. -/
theorem fusedConcat_regroup_eq {x y : ValueInfo} {xs ys : List ValueInfo} (dim : Int)
    (hp : (x :: xs).mapM ValueInfo.asTensor = .ok front)
    (hq : (y :: ys).mapM ValueInfo.asTensor = .ok back) :
    (do
      let a ← fusedConcat dim (x :: xs)
      let b ← fusedConcat dim (y :: ys)
      fusedConcat dim (a ++ b)) = (do
        let dims ← (do
          let a ← shapes front dim
          let b ← shapes back dim
          shapes [a, b] dim)
        pure [.tensor dims x.elem]) := by
  rw [fusedConcat_eq dim hp, fusedConcat_eq dim hq]
  simp only [bind_assoc, pure_bind]
  refine bind_congr fun a => bind_congr fun b => ?_
  have hread : [ValueInfo.tensor a x.elem, .tensor b y.elem].mapM ValueInfo.asTensor
      = .ok [a, b] := rfl
  exact fusedConcat_eq dim hread

/-- However a list of tensors is cut, each half has one in front, and their shapes are cut so too. -/
theorem exists_cut {front back : List ValueInfo} {parts : List Dims} (hfront : front ≠ [])
    (hback : back ≠ []) (hp : (front ++ back).mapM ValueInfo.asTensor = .ok parts) :
    ∃ x xs y ys first rest second more, front = x :: xs ∧ back = y :: ys ∧
      (x :: xs).mapM ValueInfo.asTensor = .ok (first :: rest) ∧
      (y :: ys).mapM ValueInfo.asTensor = .ok (second :: more) ∧
      parts = (first :: rest) ++ (second :: more) := by
  obtain ⟨x, xs, rfl⟩ := List.exists_cons_of_ne_nil hfront
  obtain ⟨y, ys, rfl⟩ := List.exists_cons_of_ne_nil hback
  obtain ⟨shapes, others, hshapes, hothers, rfl⟩ := Outcome.mapM_append_ok_iff.1 hp
  obtain ⟨first, rest, rfl⟩ := List.exists_cons_of_length_eq_add_one (Ensures.mapM _ _ _ hshapes)
  obtain ⟨second, more, rfl⟩ := List.exists_cons_of_length_eq_add_one (Ensures.mapM _ _ _ hothers)
  exact ⟨x, xs, y, ys, first, rest, second, more, rfl, rfl, hshapes, hothers, rfl⟩

end Concat

open Concat in
/-- REGROUP: tensors whose sizes can be added are joined without leaving the words. One alone keeps
    its shape, whatever the number of the axis. Two and more are joined if the number names an axis
    of the first one and all have its rank and its sizes off that axis; the result is the first shape
    with the sum of all sizes at the axis. However the list is cut in two, joining each half and
    then the two results comes to the same tensor, or both are refused. -/
theorem Rule.infer_fusedConcat_regroup {x : ValueInfo} {more : List ValueInfo} {first : Dims}
    {rest : List Dims} (dim : Int)
    (hp : (x :: more).mapM ValueInfo.asTensor = .ok (first :: rest))
    (hr : (first.length : Int) ≤ Word.greatest) (hadd : Addable (first :: rest)) :
    (∀ fault, (Rule.fusedConcat dim).infer (x :: more) ≠ giveUp fault) ∧
    (more = [] → (Rule.fusedConcat dim).infer (x :: more) = .ok [.tensor first x.elem]) ∧
    (more ≠ [] → ∀ made, (Rule.fusedConcat dim).infer (x :: more) = .ok made ↔
      ∃ axis : Nat, (axis < first.length ∧ (dim = axis ∨ dim = axis - first.length)) ∧
        (∀ other ∈ rest, other.length = first.length ∧ ∀ i, i ≠ axis → other[i]? = first[i]?) ∧
        made = [.tensor (first.set axis (total axis (first :: rest))) x.elem]) ∧
    ∀ front back : List ValueInfo, front ≠ [] → back ≠ [] → x :: more = front ++ back →
      (∃ made, (Rule.fusedConcat dim).infer (x :: more) = .ok made ∧
        (do
          let a ← (Rule.fusedConcat dim).infer front
          let b ← (Rule.fusedConcat dim).infer back
          (Rule.fusedConcat dim).infer (a ++ b)) = .ok made) ∨
      ∃ error error', (Rule.fusedConcat dim).infer (x :: more) = refuse error ∧
        (do
          let a ← (Rule.fusedConcat dim).infer front
          let b ← (Rule.fusedConcat dim).infer back
          (Rule.fusedConcat dim).infer (a ++ b)) = refuse error' := by
  have hwords : FaultsOnly (fun _ => False) ((Rule.fusedConcat dim).infer (x :: more)) := by
    rw [infer, fusedConcat_eq dim hp]
    exact .bind (hadd.faultsOnly_shapes dim) fun _ _ => .pure _
  have hlength : rest.length = more.length := by
    simpa using Ensures.mapM ValueInfo.asTensor (x :: more) _ hp
  refine ⟨fun fault h => hwords fault h, ?_, fun hmore made => ?_, ?_⟩
  · rintro rfl
    obtain rfl := List.length_eq_zero_iff.1 hlength
    rw [infer, fusedConcat_eq dim hp]
    rfl
  · have hne : rest ≠ [] := by
      rwa [ne_eq, ← List.length_eq_zero_iff, hlength, List.length_eq_zero_iff]
    simp only [infer, fusedConcat_many_ok_iff hp hadd hr hne, joinable_iff]
  · intro front back hfront hback hcut
    obtain ⟨y, ys, z, zs, p, ps, q, qs, rfl, rfl, hys, hzs, hall⟩ :=
      exists_cut hfront hback (hcut ▸ hp)
    obtain ⟨rfl, rfl⟩ : x = y ∧ more = ys ++ z :: zs := by simpa using hcut
    rw [hall] at hp hadd
    refine Outcome.both_ok_or_refused (fun made => ?_) hwords ?_
    · simp only [infer, fusedConcat_eq dim hp, fusedConcat_regroup_eq dim hys hzs]
      rw [Outcome.bind_ok_iff, Outcome.bind_ok_iff]
      simp only [shapes_append_ok_iff hadd]
    · simp only [infer, fusedConcat_regroup_eq dim hys hzs]
      exact .bind (faultsOnly_regroup hadd dim) fun _ _ => .pure _

/-- Three matrices side by side, with the cut before the last one. Halves of different ranks are
    refused, and so is the list of all three. -/
theorem Rule.infer_fusedConcat_regroup_columns :
    ((Rule.fusedConcat (-1)).infer [.tensor [2, 3] (some .float), .tensor [2, 4] none,
        .tensor [2, 1] none] = .ok [.tensor [2, 8] (some .float)] ∧
      (do
        let a ← (Rule.fusedConcat (-1)).infer [.tensor [2, 3] (some .float), .tensor [2, 4] none]
        let b ← (Rule.fusedConcat (-1)).infer [.tensor [2, 1] none]
        (Rule.fusedConcat (-1)).infer (a ++ b)) = .ok [.tensor [2, 8] (some .float)]) ∧
    ∃ error, (do
        let a ← (Rule.fusedConcat (-1)).infer [.tensor [2, 3] none]
        let b ← (Rule.fusedConcat (-1)).infer [.tensor [2, 3, 1] none, .tensor [2, 3, 1] none]
        (Rule.fusedConcat (-1)).infer (a ++ b)) = refuse error := by
  constructor
  · have hmade : (Rule.fusedConcat (-1)).infer [.tensor [2, 3] (some .float), .tensor [2, 4] none,
        .tensor [2, 1] none] = .ok [.tensor [2, 8] (some .float)] := rfl
    have hcut := (Rule.infer_fusedConcat_regroup (-1) rfl (by decide)
      (.of_flatten (by decide) (by decide))).2.2.2
        [.tensor [2, 3] (some .float), .tensor [2, 4] none] [.tensor [2, 1] none]
        (by simp) (by simp) rfl
    rcases hcut with ⟨made, hall, hhalves⟩ | ⟨error, error', hall, -⟩
    · cases hmade.symm.trans hall
      exact ⟨hmade, hhalves⟩
    · cases hmade.symm.trans hall
  · have hcut := (Rule.infer_fusedConcat_regroup (-1) rfl (by decide)
      (.of_flatten (by decide) (by decide))).2.2.2
        [.tensor [2, 3] none] [.tensor [2, 3, 1] none, .tensor [2, 3, 1] none]
        (by simp) (by simp) rfl
    rcases hcut with ⟨made, hall, -⟩ | ⟨error, error', -, hhalves⟩
    · cases hall
    · exact ⟨error', hhalves⟩

/-! ### Tensors packed into a list -/

namespace Concat

variable {first : Dims} {axis : Nat} {dim : Int}

/-- A shape that cannot be joined is the only thing that is refused on the way. -/
theorem refusesOnly_extend (first : Dims) (axis : Nat) (joined other : Dims) :
    RefusesOnly (· = .incompatibleShapes (.concat first other axis))
      (extend first axis joined other) := by
  rw [extend]
  split
  · refine .bind (Dims.refusesOnly_entry _ _) fun a => .bind (Dims.refusesOnly_entry _ _) fun b => ?_
    exact .bind (Word.refusesOnly_checked _ _) fun size => Dims.refusesOnly_replace _ _ size
  · exact .refuse rfl

/-- Joining shapes is refused for a number or for sizes, never for a kind of value. -/
theorem refusesOnly_shapes (parts : List Dims) (dim : Int) :
    RefusesOnly (fun error => ∀ expected actual, error ≠ .typeMismatch expected actual)
      (shapes parts dim) := by
  unfold shapes
  split
  · exact .refuse (by simp)
  · exact .pure _
  · refine .bind ((Axis.refusesOnly_resolve _ _).imp (by simp)) fun axis => ?_
    exact .foldlM (fun joined other => (refusesOnly_extend _ _ joined other).imp (by simp)) _ _

/-- Of all kinds of values, joining separate operands misses only a tensor. -/
theorem refusesOnly_fusedConcat (dim : Int) (x : ValueInfo) (rest : List ValueInfo) :
    RefusesOnly (fun error => ∀ expected actual, error = .typeMismatch expected actual →
      expected = "tensor") (fusedConcat dim (x :: rest)) := by
  simp only [fusedConcat, Operands.oneOrMore, pure_bind]
  refine .bind (.mapM (fun y error h => ?_) _) fun parts => ?_
  · cases ValueInfo.asTensor_error h
    rintro _ _ ⟨⟩
    rfl
  · refine .bind ((refusesOnly_shapes _ _).imp fun error hkind expected actual h => ?_) fun dims =>
      .pure _
    exact absurd h (hkind expected actual)

/-- Behind a first operand that is no single integer, packing reads all operands as tensors. -/
theorem construct_concat_eq {x axis : ValueInfo} (rest : List ValueInfo) (hd : axis.asInt = .ok dim)
    (hx : x.isSingle = false) :
    (do
      let list ← Listing.construct (x :: rest)
      concat (list ++ [axis])) = fusedConcat dim (x :: rest) := by
  simp only [Listing.construct_of_not_isSingle rest hx, fusedConcat, Operands.oneOrMore, pure_bind,
    bind_assoc]
  refine bind_congr fun parts => ?_
  exact concat_eq (ValueInfo.asTensorList_tensorList parts x.elem) hd

/-- A single integer in front packs integers, or misses one; and no list of integers can be joined. -/
theorem construct_concat_of_isSingle {x : ValueInfo} (axis : ValueInfo) (rest : List ValueInfo)
    (hx : x.isSingle = true) :
    ∃ expected actual, expected ≠ "tensor" ∧
      (do
        let list ← Listing.construct (x :: rest)
        concat (list ++ [axis])) = refuse (.typeMismatch expected actual) := by
  simp only [Listing.construct_of_isSingle rest hx, bind_assoc]
  cases hread : (x :: rest).mapM ValueInfo.asInt with
  | ok values => exact ⟨"tensor list", _, by decide, rfl⟩
  | error halt =>
    obtain ⟨y, -, hy⟩ := Outcome.exists_of_mapM_error hread
    cases ValueInfo.asInt_error hy
    exact ⟨"int", _, by decide, rfl⟩

end Concat

/-- LISTED: operands that are packed into a list which is then joined along an axis come to the same,
    down to the error, as the operands joined along it directly, exactly if the first of them carries
    no single integer. -/
theorem Rule.infer_listConstruct_concat {x axis : ValueInfo} {dim : Int} (rest : List ValueInfo)
    (hd : axis.asInt = .ok dim) :
    (do
      let list ← Rule.listConstruct.infer (x :: rest)
      Rule.concat.infer (list ++ [axis])) = (Rule.fusedConcat dim).infer (x :: rest) ↔
      ∀ value, x.payload? ≠ some [value] := by
  rw [← x.isSingle_eq_false_iff]
  constructor
  · intro h
    by_contra hx
    obtain ⟨expected, actual, hother, hlisted⟩ :=
      Concat.construct_concat_of_isSingle axis rest (Bool.of_not_eq_false hx)
    exact hother (Concat.refusesOnly_fusedConcat dim x rest _ (h.symm.trans hlisted) _ _ rfl)
  · exact Concat.construct_concat_eq rest hd

/-- A matrix beside a list of three integers, which stands for a column of three; and beside a list of
    tensors, which is refused on either way. -/
theorem Rule.infer_listConstruct_concat_mixed :
    (do
      let list ← Rule.listConstruct.infer [.tensor [3, 2] (some .half), .intList [7, 8, 9]]
      Rule.concat.infer (list ++ [.scalar (-1) .int64]))
      = (Rule.fusedConcat (-1)).infer [.tensor [3, 2] (some .half), .intList [7, 8, 9]] ∧
    (do
      let list ← Rule.listConstruct.infer [.tensor [3, 2] none, .tensorList [[3, 2]] none]
      Rule.concat.infer (list ++ [.scalar 9 .int64]))
      = (Rule.fusedConcat 9).infer [.tensor [3, 2] none, .tensorList [[3, 2]] none] :=
  ⟨(Rule.infer_listConstruct_concat [.intList [7, 8, 9]] (ValueInfo.asInt_scalar (-1) .int64)).2
      (by rintro _ ⟨⟩),
    (Rule.infer_listConstruct_concat [.tensorList [[3, 2]] none] (ValueInfo.asInt_scalar 9 .int64)).2
      (by rintro _ ⟨⟩)⟩

example : (Rule.fusedConcat (-1)).infer [.tensor [3, 2] (some .half), .intList [7, 8, 9]]
    = .ok [.tensor [3, 3] (some .half)] := rfl

end ShapeFlow
