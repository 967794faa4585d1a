import ShapeFlow.Proofs.Proper
import ShapeFlow.Proofs.Rule.Faults
import ShapeFlow.Proofs.Rule.Range
import ShapeFlow.Proofs.Rule.Shares
import Mathlib.Algebra.Ring.Int.Defs

/-! Rules over words. Where all sizes and all integers of the operands are words, as they are in any run,
    nearly all arithmetic of the rules stays inside the words: a chunk is no larger than its axis, a
    cut axis no longer than the whole, and what is taken off an axis was compared with it before.
    Two sums remain. Joined axes can add up to more than a word holds, and the closing entry of the
    offsets of an embedding bag cannot be taken off the least word. No rule gives up elsewhere. -/

namespace ShapeFlow

variable {P : Fault → Prop}

/-- All sizes of the value, and all integers that it carries, are words. -/
structure ValueInfo.InWords (x : ValueInfo) : Prop where
  sizes : ∀ dims ∈ x.extent.shapes, ∀ size ∈ dims, Word.Fits size
  payload : ∀ values, x.payload? = some values → ∀ value ∈ values, Word.Fits value

theorem ValueInfo.InWords.tensor {dims : Dims} (h : ∀ size ∈ dims, Word.Fits size)
    (e : Option ElemType) : (ValueInfo.tensor dims e).InWords where
  sizes := List.forall_mem_singleton.2 h
  payload := by rintro _ ⟨⟩

namespace ValueInfo.InWords

variable {x : ValueInfo} (h : x.InWords)
include h

theorem asTensor : Ensures (fun dims => ∀ size ∈ dims, Word.Fits size) x.asTensor := by
  rw [ValueInfo.asTensor]
  split
  · next dims he => exact .pure (h.sizes dims (by simp [he, Extent.shapes]))
  · exact .refuse _

theorem asInt : Ensures Word.Fits x.asInt := by
  rw [ValueInfo.asInt]
  split
  · next value hv => exact .pure (h.payload [value] hv value (by simp))
  · exact .refuse _

end ValueInfo.InWords

/-! ### Operands by position -/

namespace Operands

variable (inputs : List ValueInfo)

theorem eq_one : Ensures (fun a => inputs = [a]) (one inputs) := by
  unfold one
  split
  · exact .pure rfl
  · exact .refuse _

end Operands

namespace Dims

variable {dims : Dims} {i : Nat}

theorem mem_of_entry {size : Int} (h : entry dims i = .ok size) : size ∈ dims := by
  rw [entry] at h
  split at h
  · next he =>
    cases h
    exact List.mem_of_getElem? he
  · cases h

theorem entry_eq_getD (hi : i < dims.length) : entry dims i = .ok (dims.getD i 0) := by
  rw [entry_of_lt hi]
  simp [hi]

theorem getD_set_self (hi : i < dims.length) (size : Int) : (dims.set i size).getD i 0 = size := by
  simp [hi]

end Dims

/-! ### Chunks -/

namespace Chunk

/-- An axis whose size is a word is split into chunks without leaving the words. -/
theorem faultsOnly_sizes_of_fits {size : Int} (hs : Word.Fits size) (chunks : Int) :
    FaultsOnly P (sizes size chunks) := by
  rw [sizes_eq hs]
  split
  · exact .refuse _
  split
  · exact .refuse _
  split
  · exact .pure _
  · exact .refuse _

theorem faultsOnly_shapes_of_fits {dims : Dims} (hd : ∀ size ∈ dims, Word.Fits size)
    (chunks dim : Int) : FaultsOnly P (shapes dims chunks dim) := by
  refine .bind (Axis.faultsOnly_resolve _ _) fun axis ha => ?_
  have hlt := Axis.lt_of_resolve ha
  refine .bind (Dims.faultsOnly_entry hlt) fun size hsize => ?_
  have hfits := hd size (Dims.mem_of_entry hsize)
  exact .bind (faultsOnly_sizes_of_fits hfits chunks) fun _ _ =>
    .mapM fun part _ => Dims.faultsOnly_replace hlt part

variable {inputs : List ValueInfo} (hw : ∀ x ∈ inputs, x.InWords)
include hw

theorem faultsOnly_constantChunk_of_inWords (chunks dim : Int) :
    FaultsOnly P (constantChunk chunks dim inputs) := by
  refine .bind (Operands.faultsOnly_one _) fun x ho => ?_
  obtain rfl := Operands.eq_one inputs _ ho
  refine .bind x.faultsOnly_asTensor fun dims hd => ?_
  have hfits := (hw x (by simp)).asTensor dims hd
  exact .bind (faultsOnly_shapes_of_fits hfits _ _) fun _ _ => .pure _

end Chunk

/-! ### Slices -/

namespace Slice

end Slice

/-! ### Joined axes -/

namespace Concat

/-- The sizes of some first of the shapes, at the axis along which they are joined, add up to no word. -/
def SumLeaves (parts : List Dims) (dim : Int) : Prop :=
  ∃ first rest axis before, parts = first :: rest ∧ Axis.resolve first.length dim = .ok axis ∧
    before <+: parts ∧ ¬ Word.Fits (before.map fun dims => dims.getD axis 0).sum

/-- Shapes that fit are joined by adding their sizes at the axis. -/
theorem extend_of_joinable {first joined other : Dims} {axis : Nat} (ha : axis < first.length)
    (hj : joined.length = first.length) (h : Joinable axis first other) :
    extend first axis joined other
      = (Word.add (joined.getD axis 0) (other.getD axis 0)).map (joined.set axis) := by
  rw [extend, if_pos h, Dims.entry_eq_getD (hj ▸ ha), Dims.entry_eq_getD (h.1 ▸ ha)]
  show (Word.add _ _ >>= fun size => Dims.replace joined axis size) = _
  cases Word.add (joined.getD axis 0) (other.getD axis 0) with
  | error halt => rfl
  | ok size => exact Dims.replace_of_lt size (hj ▸ ha)

/-- Joining on from a shape gives up only where the sizes add up to no word. -/
theorem faultsOnly_foldlM_extend {first joined : Dims} {axis : Nat} (ha : axis < first.length)
    (hj : joined.length = first.length) (rest : List Dims) :
    FaultsOnly (fun fault => fault = .overflow .add ∧ ∃ before, before <+: rest ∧
        ¬ Word.Fits (joined.getD axis 0 + (before.map fun dims => dims.getD axis 0).sum))
      (rest.foldlM (extend first axis) joined) := by
  induction rest generalizing joined with
  | nil => exact .pure _
  | cons other rest ih =>
    rw [List.foldlM_cons]
    by_cases hjoin : Joinable axis first other
    · rw [extend_of_joinable ha hj hjoin]
      by_cases hfits : Word.Fits (joined.getD axis 0 + other.getD axis 0)
      · rw [Word.add, Word.checked_of_fits hfits]
        intro fault h
        have hlen : (joined.set axis (joined.getD axis 0 + other.getD axis 0)).length
            = first.length := by rw [List.length_set, hj]
        obtain ⟨hfault, before, hbefore, hsum⟩ := ih hlen fault h
        refine ⟨hfault, other :: before, List.cons_prefix_cons.2 ⟨rfl, hbefore⟩, ?_⟩
        rw [Dims.getD_set_self (hj ▸ ha)] at hsum
        rwa [List.map_cons, List.sum_cons, ← Int.add_assoc]
      · rw [Word.add, Word.checked, if_neg hfits]
        intro fault h
        cases h
        refine ⟨rfl, [other], by simp, ?_⟩
        simpa using hfits
    · rw [extend, if_neg hjoin]
      exact fun fault h => by cases h

theorem faultsOnly_shapes_sumLeaves (parts : List Dims) (dim : Int) :
    FaultsOnly (fun fault => fault = .overflow .add ∧ SumLeaves parts dim) (shapes parts dim) := by
  unfold shapes
  split
  · exact .refuse _
  · exact .pure _
  · next first rest _ =>
    refine .bind (Axis.faultsOnly_resolve _ _) fun axis ha fault h => ?_
    obtain ⟨hfault, before, hbefore, hsum⟩ :=
      faultsOnly_foldlM_extend (Axis.lt_of_resolve ha) rfl rest fault h
    refine ⟨hfault, first, rest, axis, first :: before, rfl, ha, ?_, ?_⟩
    · exact List.cons_prefix_cons.2 ⟨rfl, hbefore⟩
    · rwa [List.map_cons, List.sum_cons]

end Concat

/-! ### The two sites -/

namespace Rule

/-- The rule joins shapes whose sizes at the joined axis add up to no word. -/
inductive SumLeaves : Rule → List ValueInfo → Prop where
  | concat {list axis : ValueInfo} {parts : List Dims} {dim : Int}
      (hp : list.asTensorList = .ok parts) (hd : axis.asInt = .ok dim)
      (h : Concat.SumLeaves parts dim) : SumLeaves .concat [list, axis]
  | fusedConcat {dim : Int} {inputs : List ValueInfo} {parts : List Dims}
      (hp : inputs.mapM ValueInfo.asTensor = .ok parts) (h : Concat.SumLeaves parts dim) :
      SumLeaves (.fusedConcat dim) inputs

end Rule

namespace EmbeddingBag

/-- Bags are counted within the words, but for a closing entry off the least word. -/
theorem faultsOnly_bags_of_inWords (indices : ValueInfo) {offsets : ValueInfo} (hw : offsets.InWords)
    (endOffset : Bool) :
    FaultsOnly (fun fault => fault = .overflow .sub ∧ endOffset = true ∧
        (∃ n, indices.asTensor = .ok [n]) ∧ offsets.asTensor = .ok [Word.least])
      (bags indices offsets endOffset) := by
  refine .bind indices.faultsOnly_asTensor fun dims hi => ?_
  split
  · next n =>
    refine .bind offsets.faultsOnly_asTensor fun ends ho => ?_
    split
    · next entries =>
      have hfits := hw.asTensor [entries] ho entries (by simp)
      rw [Word.fits_iff] at hfits
      split
      · exact .refuse _
      · by_cases hleast : endOffset = true ∧ entries = Word.least
        · obtain ⟨rfl, rfl⟩ := hleast
          intro fault h
          cases h
          exact ⟨rfl, rfl, ⟨n, hi⟩, ho⟩
        · refine Word.faultsOnly_checked_of_fits (Word.fits_iff.2 ?_)
          rw [Word.least] at hleast
          cases endOffset with
          | false => simpa using hfits
          | true =>
            simp only [true_and] at hleast
            simp only [if_true]
            omega
    · exact .refuse _
  · exact .pure _
  · exact .refuse _

end EmbeddingBag

namespace Rule

example : (Rule.embeddingBag .plain true).infer
    [.tensor [4, 3] none, .tensor [6] none, .tensor [Word.least] none, .absent, .absent, .absent,
      .absent, .absent] = giveUp (.overflow .sub) := rfl

end Rule

end ShapeFlow
