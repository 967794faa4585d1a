import ShapeFlow.Proofs.Rule.Target
import ShapeFlow.RuleBook

/-! The built-in rules break no promise but one. A rule checks its operands before it works on them:
    it reads sizes at axes that it has resolved, cuts shapes at positions that it has compared, and
    divides by numbers that it knows not to be zero. What is left is arithmetic on sizes that leaves
    the words, so a rule that gives up does so with an overflow, and only a rule that adds or
    subtracts sizes does. -/

namespace ShapeFlow

variable {P : Fault → Prop}

/-! ### Operands and constants -/

namespace Operands

variable (inputs : List ValueInfo)

theorem faultsOnly_zero : FaultsOnly P (zero inputs) := by
  unfold zero
  split
  · exact .pure _
  · exact .refuse _

theorem faultsOnly_one : FaultsOnly P (one inputs) := by
  unfold one
  split
  · exact .pure _
  · exact .refuse _

theorem faultsOnly_two : FaultsOnly P (two inputs) := by
  unfold two
  split
  · exact .pure _
  · exact .refuse _

theorem faultsOnly_three : FaultsOnly P (three inputs) := by
  unfold three
  split
  · exact .pure _
  · exact .refuse _

theorem faultsOnly_five : FaultsOnly P (five inputs) := by
  unfold five
  split
  · exact .pure _
  · exact .refuse _

theorem faultsOnly_twoOrThree : FaultsOnly P (twoOrThree inputs) := by
  unfold twoOrThree
  split
  · exact .pure _
  · exact .pure _
  · exact .refuse _

theorem faultsOnly_oneOrMore : FaultsOnly P (oneOrMore inputs) := by
  unfold oneOrMore
  split
  · exact .pure _
  · exact .refuse _

theorem faultsOnly_threeOrMore : FaultsOnly P (threeOrMore inputs) := by
  unfold threeOrMore
  split
  · exact .pure _
  · exact .refuse _

theorem faultsOnly_threeOf (count : Nat) : FaultsOnly P (threeOf count inputs) := by
  unfold threeOf
  split
  · split
    · exact .pure _
    · exact .refuse _
  · exact .refuse _

end Operands

theorem CallSite.faultsOnly_requiredInt (site : CallSite) (name : String) :
    FaultsOnly P (site.requiredInt name) := by
  have hint : FaultsOnly P (site.int? name) := by
    rw [CallSite.int?]
    split
    · exact .pure _
    · exact .pure _
    · exact .refuse _
  refine .bind hint fun value _ => ?_
  split
  · exact .pure _
  · exact .refuse _

/-! ### Rules that only compare sizes -/

namespace Elementwise

theorem faultsOnly_overlay (lhs rhs as bs : Dims) :
    FaultsOnly P (Broadcast.overlay lhs rhs as bs) := by
  induction as generalizing bs with
  | nil => exact .pure _
  | cons a as ih =>
    cases bs with
    | nil => exact .pure _
    | cons b bs =>
      rw [Broadcast.overlay]
      split
      · exact .bind (ih bs) fun _ _ => .pure _
      · exact .refuse _

theorem faultsOnly_shape (lhs rhs : ValueInfo) : FaultsOnly P (shape lhs rhs) := by
  refine .bind lhs.faultsOnly_asTensor fun l _ => .bind rhs.faultsOnly_asTensor fun r _ => ?_
  split
  · exact .pure _
  · exact .bind (faultsOnly_overlay _ _ _ _) fun _ _ => .pure _

theorem faultsOnly_unary (inputs : List ValueInfo) : FaultsOnly P (unary inputs) :=
  .bind (Operands.faultsOnly_one _) fun x _ => .bind x.faultsOnly_asTensor fun _ _ => .pure _

theorem faultsOnly_binary (inputs : List ValueInfo) : FaultsOnly P (binary inputs) :=
  .bind (Operands.faultsOnly_twoOrThree _) fun ⟨lhs, rhs⟩ _ =>
    .bind (faultsOnly_shape lhs rhs) fun _ _ => .pure _

end Elementwise

namespace Matrix

theorem faultsOnly_productOf (lhs rhs : ValueInfo) : FaultsOnly P (productOf lhs rhs) := by
  refine .bind lhs.faultsOnly_asTensor fun l _ => .bind rhs.faultsOnly_asTensor fun r _ => ?_
  refine .bind ?_ fun _ _ => .pure _
  unfold productShape
  split
  · split
    · exact .pure _
    · exact .refuse _
  · exact .refuse _

theorem faultsOnly_product (inputs : List ValueInfo) : FaultsOnly P (product inputs) :=
  .bind (Operands.faultsOnly_two _) fun ⟨lhs, rhs⟩ _ =>
    .bind (faultsOnly_productOf lhs rhs) fun _ _ => .pure _

theorem faultsOnly_batchedProduct (inputs : List ValueInfo) :
    FaultsOnly P (batchedProduct inputs) := by
  refine .bind (Operands.faultsOnly_two _) fun ⟨lhs, rhs⟩ _ => ?_
  refine .bind lhs.faultsOnly_asTensor fun l _ => .bind rhs.faultsOnly_asTensor fun r _ => ?_
  split
  · split
    · exact .refuse _
    · split
      · exact .refuse _
      · exact .pure _
  · exact .refuse _

theorem faultsOnly_addProduct (inputs : List ValueInfo) : FaultsOnly P (addProduct inputs) := by
  refine .bind (Operands.faultsOnly_threeOrMore _) fun ⟨input, lhs, rhs⟩ _ => ?_
  refine .bind rhs.faultsOnly_asTensor fun r _ => ?_
  have hrest : ∀ product : ValueInfo, FaultsOnly P (do
      let dims ← Elementwise.shape input product
      pure [ValueInfo.tensor dims input.elem]) := fun product =>
    .bind (Elementwise.faultsOnly_shape input product) fun _ _ => .pure _
  dsimp only
  split
  · exact hrest lhs
  · exact .bind (faultsOnly_productOf lhs rhs) fun product _ => hrest product

end Matrix

namespace Listing

theorem faultsOnly_construct (inputs : List ValueInfo) : FaultsOnly P (construct inputs) := by
  refine .bind (Operands.faultsOnly_oneOrMore _) fun ⟨first, _⟩ _ => ?_
  dsimp only
  split
  · exact .bind (.mapM fun x _ => x.faultsOnly_asInt) fun _ _ => .pure _
  · exact .bind (.mapM fun x _ => x.faultsOnly_asTensor) fun _ _ => .pure _

theorem faultsOnly_unpack (count : Nat) (inputs : List ValueInfo) :
    FaultsOnly P (unpack count inputs) := by
  refine .bind (Operands.faultsOnly_one _) fun list _ =>
    .bind list.faultsOnly_asTensorList fun shapes _ => ?_
  split
  · exact .refuse _
  · exact .pure _

end Listing

theorem Constant.faultsOnly_constant (value : Attribute) (inputs : List ValueInfo) :
    FaultsOnly P (constant value inputs) :=
  .bind (Operands.faultsOnly_zero _) fun _ _ => .pure _

/-! ### Rules that read sizes at axes -/

namespace AxisOrder

theorem faultsOnly_transpose2d (inputs : List ValueInfo) : FaultsOnly P (transpose2d inputs) := by
  refine .bind (Operands.faultsOnly_one _) fun x _ => .bind x.faultsOnly_asTensor fun dims _ => ?_
  split
  · exact .pure _
  · exact .pure _
  · exact .pure _
  · exact .refuse _

theorem faultsOnly_transpose (inputs : List ValueInfo) : FaultsOnly P (transpose inputs) := by
  refine .bind (Operands.faultsOnly_three _) fun ⟨x, first, second⟩ _ => ?_
  refine .bind x.faultsOnly_asTensor fun dims _ => ?_
  refine .bind first.faultsOnly_asInt fun a _ => .bind (Axis.faultsOnly_resolve _ _) fun i hi => ?_
  refine .bind second.faultsOnly_asInt fun b _ => .bind (Axis.faultsOnly_resolve _ _) fun j hj => ?_
  exact .bind (Dims.faultsOnly_exchange (Axis.lt_of_resolve hi) (Axis.lt_of_resolve hj))
    fun _ _ => .pure _

theorem faultsOnly_gather (dims : Dims) (perm axes : List Int) (seen : List Nat) :
    FaultsOnly P (gather dims perm seen axes) := by
  induction axes generalizing seen with
  | nil => exact .pure _
  | cons axis axes ih =>
    rw [gather]
    split
    · exact .refuse _
    · split
      · exact .refuse _
      · next hin =>
        have hlt : axis.toNat < dims.length := by
          rw [not_or] at hin
          exact Nat.lt_of_not_le hin.1
        exact .bind (Dims.faultsOnly_entry hlt) fun _ _ => .bind (ih _) fun _ _ => .pure _

theorem faultsOnly_permute (inputs : List ValueInfo) : FaultsOnly P (permute inputs) := by
  refine .bind (Operands.faultsOnly_two _) fun ⟨x, order⟩ _ => ?_
  refine .bind x.faultsOnly_asTensor fun dims _ => .bind order.faultsOnly_asInts fun perm _ => ?_
  split
  · exact .refuse _
  · exact .bind (faultsOnly_gather _ _ _ _) fun _ _ => .pure _

end AxisOrder

namespace Concat

/-- Adding a shape keeps the rank, so the axis stays inside it. -/
theorem length_of_extend {first joined other dims : Dims} {axis : Nat}
    (h : extend first axis joined other = .ok dims) : dims.length = joined.length := by
  rw [extend] at h
  split at h
  · obtain ⟨_, -, h⟩ := Outcome.bind_ok_iff.1 h
    obtain ⟨_, -, h⟩ := Outcome.bind_ok_iff.1 h
    obtain ⟨_, -, h⟩ := Outcome.bind_ok_iff.1 h
    exact Dims.length_of_replace h
  · cases h

theorem faultsOnly_extend {first joined : Dims} {axis : Nat} (ha : axis < first.length)
    (hj : joined.length = first.length) (other : Dims) :
    FaultsOnly Fault.IsOverflow (extend first axis joined other) := by
  rw [extend]
  split
  · next h =>
    refine .bind (Dims.faultsOnly_entry (hj ▸ ha)) fun a _ => ?_
    refine .bind (Dims.faultsOnly_entry (h.1 ▸ ha)) fun b _ => ?_
    exact .bind (Word.faultsOnly_add a b) fun size _ => Dims.faultsOnly_replace (hj ▸ ha) size
  · exact .refuse _

theorem faultsOnly_shapes (parts : List Dims) (dim : Int) :
    FaultsOnly Fault.IsOverflow (shapes parts dim) := by
  unfold shapes
  split
  · exact .refuse _
  · exact .pure _
  · next first rest _ =>
    refine .bind (Axis.faultsOnly_resolve _ _) fun axis ha => ?_
    exact .foldlM (fun _ other hj => faultsOnly_extend (Axis.lt_of_resolve ha) hj other)
      (fun _ _ _ hj h => (length_of_extend h).trans hj) rest (Eq.refl first.length)

theorem faultsOnly_concat (inputs : List ValueInfo) :
    FaultsOnly Fault.IsOverflow (concat inputs) := by
  refine .bind (Operands.faultsOnly_two _) fun ⟨list, axis⟩ _ => ?_
  refine .bind list.faultsOnly_asTensorList fun parts _ => ?_
  split
  · exact .pure _
  · exact .bind axis.faultsOnly_asInt fun dim _ =>
      .bind (faultsOnly_shapes _ dim) fun _ _ => .pure _

theorem faultsOnly_fusedConcat (dim : Int) (inputs : List ValueInfo) :
    FaultsOnly Fault.IsOverflow (fusedConcat dim inputs) :=
  .bind (Operands.faultsOnly_oneOrMore _) fun ⟨_, _⟩ _ =>
    .bind (.mapM fun x _ => x.faultsOnly_asTensor) fun parts _ =>
      .bind (faultsOnly_shapes parts dim) fun _ _ => .pure _

end Concat

namespace Stack

/-- A new axis may also come last. -/
theorem faultsOnly_shapes {parts : List Dims} {axis : Nat}
    (h : ∀ first rest, parts = first :: rest → axis ≤ first.length) :
    FaultsOnly P (shapes parts axis) := by
  unfold shapes
  split
  · exact .refuse _
  · split
    · exact .refuse _
    · exact Dims.faultsOnly_insertAt (h _ _ rfl) _

theorem faultsOnly_stack (inputs : List ValueInfo) : FaultsOnly P (stack inputs) := by
  refine .bind (Operands.faultsOnly_two _) fun ⟨list, dim⟩ _ => ?_
  refine .bind list.faultsOnly_asTensorList fun parts _ => .bind dim.faultsOnly_asInt fun d _ => ?_
  refine .bind (Axis.faultsOnly_resolve _ _) fun axis ha => ?_
  refine .bind (faultsOnly_shapes ?_) fun _ _ => .pure _
  rintro first rest rfl
  exact Nat.le_of_lt (Axis.lt_of_resolve ha)

theorem faultsOnly_fusedStack (dim : Int) (inputs : List ValueInfo) :
    FaultsOnly P (fusedStack dim inputs) := by
  refine .bind (Operands.faultsOnly_oneOrMore _) fun ⟨first, rest⟩ _ => ?_
  cases rest with
  | nil => exact .pure _
  | cons =>
    refine .bind first.faultsOnly_asTensor fun front _ => ?_
    refine .bind (.mapM fun x _ => x.faultsOnly_asTensor) fun others _ => ?_
    refine .bind (Axis.faultsOnly_resolve _ _) fun axis ha => ?_
    refine .bind (faultsOnly_shapes ?_) fun _ _ => .pure _
    rintro _ _ ⟨⟩
    exact Nat.le_of_lt_succ (Axis.lt_of_resolve ha)

end Stack

/-! ### Rules that work sizes out -/

namespace Chunk

theorem faultsOnly_sizes (size chunks : Int) :
    FaultsOnly Fault.IsOverflow (sizes size chunks) := by
  rw [sizes]
  split
  · exact .refuse _
  split
  · exact .refuse _
  split
  · split
    · exact .pure _
    · exact .refuse _
  split
  · exact .refuse _
  refine .bind (Word.faultsOnly_sub _ _) fun n _ => ?_
  refine .bind (Word.faultsOnly_div _ (by omega)) fun q _ => ?_
  refine .bind (Word.faultsOnly_add _ _) fun each _ => ?_
  refine .bind (Word.faultsOnly_sub _ _) fun leading _ => ?_
  split
  · exact .refuse _
  split
  · exact .bind (Word.faultsOnly_sub _ _) fun _ _ => .pure _
  · exact .refuse _

theorem faultsOnly_shapes (dims : Dims) (chunks dim : Int) :
    FaultsOnly Fault.IsOverflow (shapes dims chunks dim) := by
  refine .bind (Axis.faultsOnly_resolve _ _) fun axis ha => ?_
  have hlt := Axis.lt_of_resolve ha
  refine .bind (Dims.faultsOnly_entry hlt) fun size _ => ?_
  exact .bind (faultsOnly_sizes _ _) fun _ _ => .mapM fun part _ => Dims.faultsOnly_replace hlt part

theorem faultsOnly_chunk (inputs : List ValueInfo) :
    FaultsOnly Fault.IsOverflow (chunk inputs) := by
  refine .bind (Operands.faultsOnly_three _) fun ⟨x, count, axis⟩ _ => ?_
  refine .bind count.faultsOnly_asInt fun _ _ => .bind axis.faultsOnly_asInt fun _ _ => ?_
  exact .bind x.faultsOnly_asTensor fun _ _ => .bind (faultsOnly_shapes _ _ _) fun _ _ => .pure _

theorem faultsOnly_constantChunk (chunks dim : Int) (inputs : List ValueInfo) :
    FaultsOnly Fault.IsOverflow (constantChunk chunks dim inputs) :=
  .bind (Operands.faultsOnly_one _) fun x _ => .bind x.faultsOnly_asTensor fun _ _ =>
    .bind (faultsOnly_shapes _ _ _) fun _ _ => .pure _

end Chunk

namespace Slice

theorem faultsOnly_strides (lo hi : Int) {step : Int} (hs : 0 < step) :
    FaultsOnly Fault.IsOverflow (strides lo hi step) := by
  rw [strides]
  split
  · exact .pure _
  · refine .bind (Word.faultsOnly_sub _ _) fun _ _ => .bind (Word.faultsOnly_sub _ _) fun _ _ => ?_
    exact .bind (Word.faultsOnly_div _ (Int.ne_of_gt hs)) fun _ _ => Word.faultsOnly_add _ _

theorem faultsOnly_length (size start stop : Int) {step : Int} (hs : 0 < step) :
    FaultsOnly Fault.IsOverflow (length size start stop step) := by
  rw [length]
  split
  · exact .pure _
  refine .bind (Word.faultsOnly_neg _) fun least _ => ?_
  split
  · exact .pure _
  refine .bind ?_ fun lo _ => .bind ?_ fun hi _ => faultsOnly_strides lo hi hs
  · refine .bind (Word.faultsOnly_neg _) fun least _ => ?_
    split
    · exact .pure _
    · split
      · exact Word.faultsOnly_add _ _
      · exact .pure _
  · rw [upper]
    split
    · exact .pure _
    · split
      · exact Word.faultsOnly_add _ _
      · exact .pure _

theorem faultsOnly_slice (inputs : List ValueInfo) :
    FaultsOnly Fault.IsOverflow (slice inputs) := by
  refine .bind (Operands.faultsOnly_five _) fun ⟨x, dim, first, last, stride⟩ _ => ?_
  refine .bind x.faultsOnly_asTensor fun dims _ => .bind dim.faultsOnly_asInt fun d _ => ?_
  refine .bind (Axis.faultsOnly_resolve _ _) fun axis ha => ?_
  have hlt := Axis.lt_of_resolve ha
  refine .bind first.faultsOnly_asInt fun start _ => .bind last.faultsOnly_asInt fun stop _ => ?_
  refine .bind stride.faultsOnly_asInt fun step _ => ?_
  split
  · exact .refuse _
  · next hs =>
    refine .bind (Dims.faultsOnly_entry hlt) fun size _ => ?_
    refine .bind (faultsOnly_length _ _ _ (Int.not_le.1 hs)) fun n _ => ?_
    exact .bind (Dims.faultsOnly_replace hlt n) fun _ _ => .pure _

end Slice

namespace Reshape

theorem faultsOnly_flatten (inputs : List ValueInfo) : FaultsOnly P (flatten inputs) := by
  refine .bind (Operands.faultsOnly_three _) fun ⟨x, first, last⟩ _ => ?_
  refine .bind x.faultsOnly_asTensor fun dims _ => ?_
  split
  · exact .pure _
  refine .bind first.faultsOnly_asInt fun a _ => .bind (Axis.faultsOnly_resolve _ _) fun i hi => ?_
  refine .bind last.faultsOnly_asInt fun b _ => .bind (Axis.faultsOnly_resolve _ _) fun j hj => ?_
  split
  · exact .refuse _
  · next hij =>
    have hi := Axis.lt_of_resolve hi
    have hj := Axis.lt_of_resolve hj
    refine .bind (Dims.faultsOnly_between (Nat.zero_le i) (Nat.le_of_lt hi)) fun before _ => ?_
    refine .bind (Dims.faultsOnly_between (by omega) hj) fun middle _ => ?_
    refine .bind Dims.faultsOnly_count fun merged _ => ?_
    exact .bind (Dims.faultsOnly_between hj (Nat.le_refl _)) fun after _ => .pure _

theorem faultsOnly_regroup {count : Int} (hfits : Word.Fits count) (target : Dims) :
    FaultsOnly P (regroup target count) := by
  by_cases h : Takes target count
  · rw [(regroup_ok_iff hfits).2 ⟨h, rfl⟩]
    exact .ok _
  · obtain ⟨cause, hcause⟩ := regroup_refused hfits h
    rw [hcause]
    exact .refuse _

/-- The number of elements is a word, and it is only ever divided by positive numbers. -/
theorem faultsOnly_reshape (inputs : List ValueInfo) : FaultsOnly P (reshape inputs) := by
  rw [reshape_eq_regroup]
  refine .bind (Operands.faultsOnly_two _) fun ⟨x, shape⟩ _ => ?_
  refine .bind shape.faultsOnly_asInts fun target _ => .bind x.faultsOnly_asTensor fun dims _ => ?_
  refine .bind Dims.faultsOnly_count fun count hcount => ?_
  exact .bind (faultsOnly_regroup (Dims.fits_count count hcount) target) fun _ _ => .pure _

end Reshape

namespace EmbeddingBag

theorem faultsOnly_bags (indices offsets : ValueInfo) (endOffset : Bool) :
    FaultsOnly Fault.IsOverflow (bags indices offsets endOffset) := by
  refine .bind indices.faultsOnly_asTensor fun dims _ => ?_
  split
  · refine .bind offsets.faultsOnly_asTensor fun ends _ => ?_
    split
    · split
      · exact .refuse _
      · exact Word.faultsOnly_sub _ _
    · exact .refuse _
  · exact .pure _
  · exact .refuse _

theorem faultsOnly_width (packing : Packing) (table : ValueInfo) :
    FaultsOnly P (width packing table) := by
  refine .bind table.faultsOnly_asTensor fun dims _ => ?_
  split
  · exact .refuse _
  · split
    · exact .refuse _
    · exact .pure _

theorem faultsOnly_pool (packing : Packing) (endOffset : Bool) (inputs : List ValueInfo) :
    FaultsOnly Fault.IsOverflow (pool packing endOffset inputs) := by
  refine .bind (Operands.faultsOnly_threeOf _ _) fun ⟨table, indices, offsets⟩ _ => ?_
  exact .bind (faultsOnly_bags indices offsets endOffset) fun _ _ =>
    .bind (faultsOnly_width packing table) fun _ _ => .pure _

end EmbeddingBag

/-! ### All of them -/

namespace Rule

/-- A built-in rule that gives up has left the words. -/
theorem faultsOnly_infer (rule : Rule) (inputs : List ValueInfo) :
    FaultsOnly Fault.IsOverflow (rule.infer inputs) := by
  cases rule with
  | unary => exact Elementwise.faultsOnly_unary inputs
  | binary => exact Elementwise.faultsOnly_binary inputs
  | product => exact Matrix.faultsOnly_product inputs
  | batchedProduct => exact Matrix.faultsOnly_batchedProduct inputs
  | addProduct => exact Matrix.faultsOnly_addProduct inputs
  | transpose2d => exact AxisOrder.faultsOnly_transpose2d inputs
  | transpose => exact AxisOrder.faultsOnly_transpose inputs
  | permute => exact AxisOrder.faultsOnly_permute inputs
  | flatten => exact Reshape.faultsOnly_flatten inputs
  | reshape => exact Reshape.faultsOnly_reshape inputs
  | concat => exact Concat.faultsOnly_concat inputs
  | fusedConcat dim => exact Concat.faultsOnly_fusedConcat dim inputs
  | stack => exact Stack.faultsOnly_stack inputs
  | fusedStack dim => exact Stack.faultsOnly_fusedStack dim inputs
  | chunk => exact Chunk.faultsOnly_chunk inputs
  | constantChunk chunks dim => exact Chunk.faultsOnly_constantChunk chunks dim inputs
  | slice => exact Slice.faultsOnly_slice inputs
  | listConstruct => exact Listing.faultsOnly_construct inputs
  | listUnpack count => exact Listing.faultsOnly_unpack count inputs
  | embeddingBag packing endOffset => exact EmbeddingBag.faultsOnly_pool packing endOffset inputs
  | constant value => exact Constant.faultsOnly_constant value inputs

/-- Reading a rule off a node does not fault. -/
theorem Kind.faultsOnly_ruleAt (kind : Kind) (site : CallSite) :
    FaultsOnly P (kind.ruleAt site) := by
  cases kind with
  | fusedConcat => exact .bind (site.faultsOnly_requiredInt _) fun _ _ => .pure _
  | fusedStack => exact .bind (site.faultsOnly_requiredInt _) fun _ _ => .pure _
  | constantChunk =>
    refine .bind (site.faultsOnly_requiredInt _) fun chunks _ => ?_
    refine .bind (site.faultsOnly_requiredInt _) fun dim _ => ?_
    split
    · exact .refuse _
    · exact .pure _
  | _ => exact .pure _

theorem Kind.faultsOnly_shapeFn (kind : Kind) (inputs : List ValueInfo) (site : CallSite) :
    FaultsOnly Fault.IsOverflow (kind.shapeFn inputs site) :=
  .bind (kind.faultsOnly_ruleAt site) fun rule _ => rule.faultsOnly_infer inputs

end Rule

end ShapeFlow
