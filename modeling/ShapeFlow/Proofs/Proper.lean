import ShapeFlow.Proofs.Outcome
import ShapeFlow.Rule.Operands

/-! Values in order. A value is *proper* if none of its sizes is negative, a tensor list carries no
    integers, and integers come with the sizes that stand in for them. A proper value reads as sizes
    that are not negative, and changing and cutting such sizes makes no negative ones, so a rule that
    stays with its operands stays with proper values. -/

namespace ShapeFlow

/-- No size is negative. -/
def Dims.Nonneg (dims : Dims) : Prop := ∀ d ∈ dims, 0 ≤ d

instance (dims : Dims) : Decidable dims.Nonneg := inferInstanceAs (Decidable (∀ d ∈ dims, 0 ≤ d))

/-- The shapes in an extent. -/
def Extent.shapes : Extent → List Dims
  | tensor dims => [dims]
  | list shapes => shapes

/-- The sizes of a value are not negative, and go with the integers that it carries. -/
structure ValueInfo.Proper (x : ValueInfo) : Prop where
  nonneg : ∀ dims ∈ x.extent.shapes, dims.Nonneg
  list : ∀ shapes, x.extent = .list shapes → x.payload? = none
  payload : ∀ values, x.payload? = some values →
    (x.extent = .tensor [1] ∧ values.length = 1) ∨ x.extent = .tensor [values.length, 1]

/-- All of the values are proper. -/
def AllProper (xs : List ValueInfo) : Prop := ∀ x ∈ xs, x.Proper

@[simp] theorem allProper_nil : AllProper [] := by simp [AllProper]

@[simp] theorem allProper_cons {x : ValueInfo} {xs : List ValueInfo} :
    AllProper (x :: xs) ↔ x.Proper ∧ AllProper xs := by simp [AllProper]

/-! ### Sizes that are not negative -/

namespace Dims

variable {dims dims' : Dims} {i : Nat} {size : Int}

@[simp] theorem nonneg_nil : Nonneg [] := by simp [Nonneg]

@[simp] theorem nonneg_cons : Nonneg (size :: dims) ↔ 0 ≤ size ∧ dims.Nonneg := by
  simp [Nonneg]

@[simp] theorem nonneg_append : Nonneg (dims ++ dims') ↔ dims.Nonneg ∧ dims'.Nonneg := by
  simp [Nonneg, or_imp, forall_and]

@[simp] theorem nonneg_reverse : Nonneg dims.reverse ↔ dims.Nonneg := by
  simp [Nonneg]

theorem nonneg_entry (hn : dims.Nonneg) (h : entry dims i = .ok size) : 0 ≤ size := by
  rw [entry] at h
  split at h
  · next he =>
    cases h
    exact hn size (List.mem_of_getElem? he)
  · cases h

theorem nonneg_replace (hn : dims.Nonneg) (hs : 0 ≤ size)
    (h : replace dims i size = .ok dims') : dims'.Nonneg := by
  rw [replace] at h
  split at h
  · cases h
    intro d hd
    rcases List.mem_or_eq_of_mem_set hd with hd | rfl
    · exact hn d hd
    · exact hs
  · cases h

theorem nonneg_exchange {j : Nat} (hn : dims.Nonneg) :
    Ensures Nonneg (exchange dims i j) := by
  refine .bind fun a ha => .bind fun b hb => .bind fun dims₁ h₁ => ?_
  intro dims₂ h₂
  have hn₁ := nonneg_replace hn (nonneg_entry hn hb) h₁
  exact nonneg_replace hn₁ (nonneg_entry hn ha) h₂

theorem nonneg_insertAt (hn : dims.Nonneg) (hs : 0 ≤ size) :
    Ensures Nonneg (insertAt dims i size) := by
  rw [insertAt]
  split
  · next hi =>
    refine .pure fun d hd => ?_
    rcases (List.mem_insertIdx hi).1 hd with rfl | hd
    · exact hs
    · exact hn d hd
  · exact fun _ h => by cases h

theorem nonneg_between {lo hi : Nat} (hn : dims.Nonneg) :
    Ensures Nonneg (between dims lo hi) := by
  rw [between]
  split
  · split
    · exact .pure fun d hd => hn d (List.mem_of_mem_take (List.mem_of_mem_drop hd))
    · exact fun _ h => by cases h
  · exact fun _ h => by cases h

end Dims

/-! ### Values as rules make and read them -/

namespace ValueInfo

/-- The sizes of a value always go with its integers, so only their sign is left to show. -/
theorem proper_iff {x : ValueInfo} : x.Proper ↔ ∀ dims ∈ x.extent.shapes, dims.Nonneg := by
  constructor
  · exact fun h => h.nonneg
  · intro h
    obtain ⟨content, elem⟩ := x
    refine ⟨h, fun shapes hs => ?_, fun values hv => ?_⟩
    · cases content <;> simp_all [extent, payload?, Content.extent, Content.payload?]
    · cases content with
      | tensor => cases hv
      | tensorList => cases hv
      | int => cases hv; exact .inl ⟨rfl, rfl⟩
      | intList => cases hv; exact .inr rfl

variable {dims : Dims} {shapes : List Dims} {e : Option ElemType} {x : ValueInfo}

@[simp] theorem proper_tensor_iff : (tensor dims e).Proper ↔ dims.Nonneg := by
  rw [proper_iff]
  simp [tensor, extent, Content.extent, Extent.shapes]

@[simp] theorem proper_tensorList_iff :
    (tensorList shapes e).Proper ↔ ∀ dims ∈ shapes, dims.Nonneg := by
  rw [proper_iff]
  simp [tensorList, extent, Content.extent, Extent.shapes]

@[simp] theorem proper_scalar (value : Int) (e : ElemType) : (scalar value e).Proper := by
  rw [proper_iff]
  simp [scalar, extent, Content.extent, Extent.shapes]

@[simp] theorem proper_intList (values : List Int) : (intList values).Proper := by
  rw [proper_iff]
  simp [intList, extent, Content.extent, Extent.shapes]

@[simp] theorem proper_absent : absent.Proper := proper_tensor_iff.2 Dims.nonneg_nil

/-- A proper value reads as sizes that are not negative. -/
theorem Proper.asTensor (h : x.Proper) : Ensures Dims.Nonneg x.asTensor := by
  rw [ValueInfo.asTensor]
  split
  · next dims he => exact .pure (h.nonneg dims (by simp [he, Extent.shapes]))
  · exact .refuse _

theorem Proper.asTensorList (h : x.Proper) :
    Ensures (fun shapes => ∀ dims ∈ shapes, Dims.Nonneg dims) x.asTensorList := by
  rw [ValueInfo.asTensorList]
  split
  · next shapes he => exact .pure fun dims hd => h.nonneg dims (by simpa [he, Extent.shapes] using hd)
  · exact .refuse _

end ValueInfo

/-! ### Operands -/

namespace Operands

variable {inputs : List ValueInfo} (hp : AllProper inputs)
include hp

theorem proper_one : Ensures (fun a => a.Proper) (one inputs) := by
  unfold one
  split
  · exact .pure (by simpa using hp)
  · exact .refuse _

theorem proper_two : Ensures (fun (a, b) => a.Proper ∧ b.Proper) (two inputs) := by
  unfold two
  split
  · exact .pure (by simpa using hp)
  · exact .refuse _

theorem proper_three : Ensures (fun (a, b, c) => a.Proper ∧ b.Proper ∧ c.Proper) (three inputs) := by
  unfold three
  split
  · exact .pure (by simpa using hp)
  · exact .refuse _

theorem proper_five : Ensures (fun p => p.1.Proper) (five inputs) := by
  unfold five
  split
  · exact .pure (hp _ (by simp))
  · exact .refuse _

theorem proper_twoOrThree : Ensures (fun (a, b) => a.Proper ∧ b.Proper) (twoOrThree inputs) := by
  unfold twoOrThree
  split
  · exact .pure (by simpa using hp)
  · exact .pure ⟨hp _ (by simp), hp _ (by simp)⟩
  · exact .refuse _

theorem proper_oneOrMore :
    Ensures (fun (a, rest) => a.Proper ∧ AllProper rest) (oneOrMore inputs) := by
  unfold oneOrMore
  split
  · exact .pure (by simpa using hp)
  · exact .refuse _

theorem proper_threeOrMore :
    Ensures (fun (a, b, c) => a.Proper ∧ b.Proper ∧ c.Proper) (threeOrMore inputs) := by
  unfold threeOrMore
  split
  · exact .pure ⟨hp _ (by simp), hp _ (by simp), hp _ (by simp)⟩
  · exact .refuse _

theorem proper_threeOf (count : Nat) :
    Ensures (fun (a, b, c) => a.Proper ∧ b.Proper ∧ c.Proper) (threeOf count inputs) := by
  unfold threeOf
  split
  · split
    · exact .pure ⟨hp _ (by simp), hp _ (by simp), hp _ (by simp)⟩
    · exact .refuse _
  · exact .refuse _

end Operands

theorem nonneg_mapM_asTensor {xs : List ValueInfo} (hp : AllProper xs) :
    Ensures (fun shapes => ∀ dims ∈ shapes, Dims.Nonneg dims) (xs.mapM ValueInfo.asTensor) :=
  .forall_mapM fun x hx => (hp x hx).asTensor

end ShapeFlow
