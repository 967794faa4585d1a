import ShapeFlow.Proofs.Proper
import ShapeFlow.Proofs.Rule.Builtin

/-! What the built-in rules make is proper. Rules pass sizes on, multiply, add and count them, or divide
    them by positive numbers, and where a rule subtracts it has compared first. The integers of a
    payload can be negative, but a rule that makes sizes of them looks at each, and the `-1` of a
    target shape is worked out. Only a constant brings in sizes of its own. -/

namespace ShapeFlow

/-! ### Rules that pass sizes on -/

namespace Elementwise

theorem nonneg_overlay {lhs rhs as bs : Dims} (ha : as.Nonneg) (hb : bs.Nonneg) :
    Ensures Dims.Nonneg (Broadcast.overlay lhs rhs as bs) := by
  induction as generalizing bs with
  | nil => exact .pure hb
  | cons a as ih =>
    cases bs with
    | nil => exact .pure ha
    | cons b bs =>
      rw [Dims.nonneg_cons] at ha hb
      rw [Broadcast.overlay]
      split
      · next c hc =>
        have hc : 0 ≤ c := by
          simp only [Broadcast.size?] at hc
          split at hc
          · cases hc; exact hb.1
          · split at hc
            · cases hc; exact ha.1
            · cases hc
        exact .bind fun rest hr => .pure (Dims.nonneg_cons.2 ⟨hc, ih ha.2 hb.2 rest hr⟩)
      · exact .refuse _

theorem nonneg_shape {lhs rhs : ValueInfo} (hl : lhs.Proper) (hr : rhs.Proper) :
    Ensures Dims.Nonneg (shape lhs rhs) := by
  refine .bind fun l hld => .bind fun r hrd => ?_
  split
  · exact .pure (hl.asTensor l hld)
  · refine .bind fun dims hd => .pure ?_
    rw [Dims.nonneg_reverse]
    refine nonneg_overlay ?_ ?_ dims hd
    · simpa using hl.asTensor l hld
    · simpa using hr.asTensor r hrd

variable {inputs : List ValueInfo} (hp : AllProper inputs)
include hp

theorem proper_unary : Ensures AllProper (unary inputs) := by
  refine .bind fun x hx => .bind fun dims hd => .pure ?_
  simpa using (Operands.proper_one hp x hx).asTensor dims hd

theorem proper_binary : Ensures AllProper (binary inputs) := by
  refine .bind fun ⟨lhs, rhs⟩ ho => .bind fun dims hd => .pure ?_
  obtain ⟨hl, hr⟩ := Operands.proper_twoOrThree hp _ ho
  simpa using nonneg_shape hl hr dims hd

end Elementwise

namespace Matrix

theorem nonneg_productShape {lhs rhs : Dims} (hl : lhs.Nonneg) (hr : rhs.Nonneg) :
    Ensures Dims.Nonneg (productShape lhs rhs) := by
  intro dims h
  obtain ⟨rows, inner, cols, rfl, rfl, rfl⟩ := productShape_ok_iff.1 h
  simp only [Dims.nonneg_cons] at hl hr
  simp [hl, hr]

theorem proper_productOf {lhs rhs : ValueInfo} (hl : lhs.Proper) (hr : rhs.Proper) :
    Ensures (fun x => x.Proper) (productOf lhs rhs) := by
  refine .bind fun l hld => .bind fun r hrd => .bind fun dims hd => .pure ?_
  rw [ValueInfo.proper_tensor_iff]
  exact nonneg_productShape (hl.asTensor l hld) (hr.asTensor r hrd) dims hd

variable {inputs : List ValueInfo} (hp : AllProper inputs)
include hp

theorem proper_product : Ensures AllProper (product inputs) := by
  refine .bind fun ⟨lhs, rhs⟩ ho => .bind fun x hx => .pure ?_
  obtain ⟨hl, hr⟩ := Operands.proper_two hp _ ho
  simpa using proper_productOf hl hr x hx

theorem proper_batchedProduct : Ensures AllProper (batchedProduct inputs) := by
  refine .bind fun ⟨lhs, rhs⟩ ho => .bind fun l hld => .bind fun r hrd => ?_
  obtain ⟨hl, hr⟩ := Operands.proper_two hp _ ho
  have hln := hl.asTensor l hld
  have hrn := hr.asTensor r hrd
  split
  · split
    · exact .refuse _
    · split
      · exact .refuse _
      · simp only [Dims.nonneg_cons] at hln hrn
        exact .pure (by simp [hln, hrn])
  · exact .refuse _

theorem proper_addProduct : Ensures AllProper (addProduct inputs) := by
  refine .bind fun ⟨input, lhs, rhs⟩ ho => .bind fun r hrd => ?_
  obtain ⟨hi, hl, hr⟩ := Operands.proper_threeOrMore hp _ ho
  have hrest : ∀ product : ValueInfo, product.Proper → Ensures AllProper (do
      let dims ← Elementwise.shape input product
      pure [ValueInfo.tensor dims input.elem]) := by
    intro product hproduct
    refine .bind fun dims hd => .pure ?_
    simpa using Elementwise.nonneg_shape hi hproduct dims hd
  dsimp only
  split
  · exact hrest lhs hl
  · exact .bind fun product hproduct => hrest product (proper_productOf hl hr product hproduct)

end Matrix

namespace AxisOrder

theorem nonneg_gather {dims : Dims} (hn : dims.Nonneg) (perm : List Int) (seen : List Nat)
    (axes : List Int) : Ensures Dims.Nonneg (gather dims perm seen axes) := by
  induction axes generalizing seen with
  | nil => exact .pure Dims.nonneg_nil
  | cons axis axes ih =>
    rw [gather]
    split
    · exact .refuse _
    · split
      · exact .refuse _
      · refine .bind fun size hs => .bind fun sizes hr => .pure ?_
        exact Dims.nonneg_cons.2 ⟨Dims.nonneg_entry hn hs, ih _ sizes hr⟩

variable {inputs : List ValueInfo} (hp : AllProper inputs)
include hp

theorem proper_transpose2d : Ensures AllProper (transpose2d inputs) := by
  refine .bind fun x hx => .bind fun dims hd => ?_
  have hn := (Operands.proper_one hp x hx).asTensor dims hd
  split
  · exact .pure (by simp)
  · exact .pure (by simpa using hn)
  · simp only [Dims.nonneg_cons] at hn
    exact .pure (by simp [hn])
  · exact .refuse _

theorem proper_transpose : Ensures AllProper (transpose inputs) := by
  refine .bind fun ⟨x, first, second⟩ ho => .bind fun dims hd => ?_
  refine .bind fun _ _ => .bind fun i _ => .bind fun _ _ => .bind fun j _ => ?_
  refine .bind fun swapped hs => .pure ?_
  obtain ⟨hx, -, -⟩ := Operands.proper_three hp _ ho
  simpa using Dims.nonneg_exchange (hx.asTensor dims hd) swapped hs

theorem proper_permute : Ensures AllProper (permute inputs) := by
  refine .bind fun ⟨x, order⟩ ho => .bind fun dims hd => .bind fun perm _ => ?_
  obtain ⟨hx, -⟩ := Operands.proper_two hp _ ho
  split
  · exact .refuse _
  · refine .bind fun permuted hg => .pure ?_
    simpa using nonneg_gather (hx.asTensor dims hd) perm [] perm permuted hg

end AxisOrder

namespace Listing

variable {inputs : List ValueInfo} (hp : AllProper inputs)
include hp

theorem proper_construct : Ensures AllProper (construct inputs) := by
  refine .bind fun ⟨first, _⟩ _ => ?_
  dsimp only
  split
  · exact .bind fun values _ => .pure (by simp)
  · refine .bind fun shapes hs => .pure ?_
    simpa using nonneg_mapM_asTensor hp shapes hs

theorem proper_unpack (count : Nat) : Ensures AllProper (unpack count inputs) := by
  refine .bind fun list hl => .bind fun shapes hs => ?_
  have hn := (Operands.proper_one hp list hl).asTensorList shapes hs
  split
  · exact .refuse _
  · refine .pure fun x hx => ?_
    obtain ⟨dims, hd, rfl⟩ := List.mem_map.1 hx
    exact ValueInfo.proper_tensor_iff.2 (hn dims hd)

end Listing

/-! ### Rules that work on sizes -/

namespace Concat

theorem nonneg_extend {first joined other : Dims} {axis : Nat} (hj : joined.Nonneg)
    (ho : other.Nonneg) : Ensures Dims.Nonneg (extend first axis joined other) := by
  rw [extend]
  split
  · refine .bind fun a ha => .bind fun b hb => .bind fun size hs => ?_
    obtain ⟨-, rfl⟩ := Word.checked_eq_ok_iff.1 hs
    have hsum := Int.add_nonneg (Dims.nonneg_entry hj ha) (Dims.nonneg_entry ho hb)
    exact fun dims hd => Dims.nonneg_replace hj hsum hd
  · exact .refuse _

theorem nonneg_shapes {parts : List Dims} (hn : ∀ dims ∈ parts, dims.Nonneg) (dim : Int) :
    Ensures Dims.Nonneg (shapes parts dim) := by
  unfold shapes
  split
  · exact .refuse _
  · exact .pure (hn _ (by simp))
  · refine .bind fun axis _ => .foldlM (fun joined other ho hj => ?_) (hn _ (by simp))
    exact nonneg_extend hj (hn other (List.mem_cons_of_mem _ ho))

variable {inputs : List ValueInfo} (hp : AllProper inputs)
include hp

theorem proper_concat : Ensures AllProper (concat inputs) := by
  refine .bind fun ⟨list, axis⟩ ho => .bind fun parts hs => ?_
  have hn := (Operands.proper_two hp _ ho).1.asTensorList parts hs
  split
  · exact .pure (by simpa using hn)
  · refine .bind fun dim _ => .bind fun dims hd => .pure ?_
    simpa using nonneg_shapes hn dim dims hd

theorem proper_fusedConcat (dim : Int) : Ensures AllProper (fusedConcat dim inputs) := by
  refine .bind fun ⟨first, _⟩ _ => .bind fun parts hs => .bind fun dims hd => .pure ?_
  simpa using nonneg_shapes (nonneg_mapM_asTensor hp parts hs) dim dims hd

end Concat

namespace Stack

theorem nonneg_shapes {parts : List Dims} (hn : ∀ dims ∈ parts, dims.Nonneg) (axis : Nat) :
    Ensures Dims.Nonneg (shapes parts axis) := by
  unfold shapes
  split
  · exact .refuse _
  · split
    · exact .refuse _
    · exact Dims.nonneg_insertAt (hn _ (by simp)) (by omega)

variable {inputs : List ValueInfo} (hp : AllProper inputs)
include hp

theorem proper_stack : Ensures AllProper (stack inputs) := by
  refine .bind fun ⟨list, dim⟩ ho => .bind fun parts hs => ?_
  refine .bind fun _ _ => .bind fun axis _ => .bind fun dims hd => .pure ?_
  have hn := (Operands.proper_two hp _ ho).1.asTensorList parts hs
  simpa using nonneg_shapes hn axis dims hd

theorem proper_fusedStack (dim : Int) : Ensures AllProper (fusedStack dim inputs) := by
  refine .bind fun ⟨first, rest⟩ ho => ?_
  obtain ⟨hf, hr⟩ := Operands.proper_oneOrMore hp _ ho
  cases rest with
  | nil => exact .pure (by simpa using hf)
  | cons second rest =>
    refine .bind fun front hfront => .bind fun others hothers => .bind fun axis _ => ?_
    refine .bind fun dims hd => .pure ?_
    have hn : ∀ part ∈ front :: others, part.Nonneg :=
      List.forall_mem_cons.2 ⟨hf.asTensor front hfront, nonneg_mapM_asTensor hr others hothers⟩
    simpa using nonneg_shapes hn axis dims hd

end Stack

namespace Chunk

/-- The chunks of an axis have sizes that are not negative. -/
theorem nonneg_sizes (size chunks : Int) : Ensures Dims.Nonneg (sizes size chunks) := by
  rw [sizes]
  split
  · exact .refuse _
  split
  · exact .refuse _
  split
  · split
    · exact .pure (by simp)
    · exact .refuse _
  split
  · exact .refuse _
  refine .bind fun n hn => .bind fun q hq => .bind fun each he => .bind fun leading hl => ?_
  obtain ⟨-, rfl⟩ := Word.checked_eq_ok_iff.1 hn
  obtain ⟨-, -, rfl⟩ := Word.div_eq_ok_iff.1 hq
  obtain ⟨-, rfl⟩ := Word.checked_eq_ok_iff.1 he
  split
  · exact .refuse _
  split
  · refine .bind fun last hlast => .pure ?_
    obtain ⟨-, rfl⟩ := Word.checked_eq_ok_iff.1 hlast
    have hquot : 0 ≤ (size - 1).tdiv chunks := Int.tdiv_nonneg (by omega) (by omega)
    rw [Dims.nonneg_append]
    constructor
    · intro d hd
      rw [List.eq_of_mem_replicate hd]
      omega
    · simp only [Dims.nonneg_cons, Dims.nonneg_nil, and_true]
      omega
  · exact .refuse _

theorem nonneg_shapes {dims : Dims} (hn : dims.Nonneg) (chunks dim : Int) :
    Ensures (fun parts => ∀ part ∈ parts, Dims.Nonneg part) (shapes dims chunks dim) := by
  refine .bind fun axis _ => .bind fun size _ => .bind fun parts hparts => ?_
  refine .forall_mapM fun part hpart dims' h => ?_
  exact Dims.nonneg_replace hn (nonneg_sizes size chunks parts hparts part hpart) h

variable {inputs : List ValueInfo} (hp : AllProper inputs)
include hp

theorem proper_chunk : Ensures AllProper (chunk inputs) := by
  refine .bind fun ⟨x, count, axis⟩ ho => .bind fun chunks _ => .bind fun dim _ => ?_
  refine .bind fun dims hd => .bind fun parts hparts => .pure ?_
  have hn := (Operands.proper_three hp _ ho).1.asTensor dims hd
  simpa using nonneg_shapes hn chunks dim parts hparts

theorem proper_constantChunk (chunks dim : Int) :
    Ensures AllProper (constantChunk chunks dim inputs) := by
  refine .bind fun x hx => .bind fun dims hd => .bind fun parts hparts => .pure ?_
  have hn := nonneg_shapes ((Operands.proper_one hp x hx).asTensor dims hd) chunks dim parts hparts
  intro y hy
  obtain ⟨part, hpart, rfl⟩ := List.mem_map.1 hy
  exact ValueInfo.proper_tensor_iff.2 (hn part hpart)

end Chunk

namespace Slice

/-- A number of positions is not negative, whatever the ends. -/
theorem nonneg_strides {lo hi step : Int} (hs : 0 < step) :
    Ensures (fun n : Int => 0 ≤ n) (strides lo hi step) := by
  rw [strides]
  split
  · exact .pure (Int.le_refl 0)
  · refine .bind fun a ha => .bind fun span hspan => .bind fun q hq => ?_
    obtain ⟨-, rfl⟩ := Word.checked_eq_ok_iff.1 ha
    obtain ⟨-, rfl⟩ := Word.checked_eq_ok_iff.1 hspan
    obtain ⟨-, -, rfl⟩ := Word.div_eq_ok_iff.1 hq
    intro n hn
    obtain ⟨-, rfl⟩ := Word.checked_eq_ok_iff.1 hn
    have hquot : 0 ≤ (hi - lo - 1).tdiv step := Int.tdiv_nonneg (by omega) (by omega)
    omega

theorem nonneg_length {step : Int} (size start stop : Int) (hs : 0 < step) :
    Ensures (fun n : Int => 0 ≤ n) (length size start stop step) := by
  rw [length]
  split
  · exact .pure (Int.le_refl 0)
  · refine .bind fun lowest _ => ?_
    split
    · exact .pure (Int.le_refl 0)
    · exact .bind fun lo _ => .bind fun hi _ => nonneg_strides hs

theorem proper_slice {inputs : List ValueInfo} (hp : AllProper inputs) :
    Ensures AllProper (slice inputs) := by
  refine .bind fun ⟨x, dim, first, last, stride⟩ ho => .bind fun dims hd => ?_
  refine .bind fun _ _ => .bind fun axis _ => .bind fun start _ => .bind fun stop _ => ?_
  refine .bind fun step _ => ?_
  have hn := (Operands.proper_five hp _ ho).asTensor dims hd
  split
  · exact .refuse _
  · refine .bind fun size _ => .bind fun n hlen => .bind fun cut hcut => .pure ?_
    have hpos := nonneg_length size start stop (by omega) n hlen
    simpa using Dims.nonneg_replace hn hpos hcut

end Slice

/-- The number of elements is not negative. -/
theorem Dims.nonneg_count {dims : Dims} (hn : dims.Nonneg) :
    Ensures (fun n : Int => 0 ≤ n) (count dims) := by
  intro n h
  obtain ⟨-, rfl⟩ := count_ok_iff.1 h
  exact List.prod_nonneg hn

namespace Reshape

theorem proper_flatten {inputs : List ValueInfo} (hp : AllProper inputs) :
    Ensures AllProper (flatten inputs) := by
  refine .bind fun ⟨x, first, last⟩ ho => .bind fun dims hd => ?_
  have hn := (Operands.proper_three hp _ ho).1.asTensor dims hd
  split
  · exact .pure (by simp)
  refine .bind fun _ _ => .bind fun i _ => .bind fun _ _ => .bind fun j _ => ?_
  split
  · exact .refuse _
  · refine .bind fun before hb => .bind fun run hr => .bind fun merged hm => ?_
    refine .bind fun after ha => .pure ?_
    have hmerged := Dims.nonneg_count (Dims.nonneg_between hn run hr) merged hm
    have hbefore := Dims.nonneg_between hn before hb
    have hafter := Dims.nonneg_between hn after ha
    simp [hbefore, hmerged, hafter]

theorem proper_reshape {inputs : List ValueInfo} (hp : AllProper inputs) :
    Ensures AllProper (reshape inputs) := by
  rw [reshape_eq_regroup]
  refine .bind fun ⟨x, shape⟩ ho => .bind fun target _ => .bind fun dims hd => ?_
  refine .bind fun count hc => .bind fun sizes hsizes => .pure ?_
  have hcount := Dims.nonneg_count ((Operands.proper_two hp _ ho).1.asTensor dims hd) count hc
  obtain ⟨htakes, rfl⟩ := (regroup_ok_iff (Dims.fits_count count hc)).1 hsizes
  simpa using htakes.nonneg_resolved hcount

end Reshape

namespace EmbeddingBag

/-- A closing entry is taken off only where there is an entry. -/
theorem nonneg_bags {indices offsets : ValueInfo} (hi : indices.Proper) (ho : offsets.Proper)
    (endOffset : Bool) : Ensures (fun n : Int => 0 ≤ n) (bags indices offsets endOffset) := by
  refine .bind fun dims hd => ?_
  have hdims := hi.asTensor dims hd
  split
  · refine .bind fun dims' hd' => ?_
    have hdims' := ho.asTensor dims' hd'
    split
    · next n =>
      split
      · exact .refuse _
      · next hempty =>
        intro rows hrows
        obtain ⟨-, rfl⟩ := Word.checked_eq_ok_iff.1 hrows
        have hn : 0 ≤ n := by simpa using hdims'
        cases endOffset with
        | true =>
          have hne : n ≠ 0 := fun h => hempty ⟨rfl, h⟩
          simp only [if_true]
          omega
        | false => simpa using hn
    · exact .refuse _
  · exact .pure (by simpa using (Dims.nonneg_cons.1 hdims).1)
  · exact .refuse _

theorem nonneg_width (packing : Packing) (table : ValueInfo) :
    Ensures (fun n : Int => 0 ≤ n) (width packing table) := by
  refine .bind fun dims _ => ?_
  split
  · exact .refuse _
  · split
    · exact .refuse _
    · next hpos => exact .pure (by omega)

theorem proper_pool {inputs : List ValueInfo} (hp : AllProper inputs) (packing : Packing)
    (endOffset : Bool) : Ensures AllProper (pool packing endOffset inputs) := by
  refine .bind fun ⟨table, indices, offsets⟩ ho => .bind fun rows hr => .bind fun cols hc => .pure ?_
  obtain ⟨-, hi, hoff⟩ := Operands.proper_threeOf hp packing.operandCount _ ho
  have hrows := nonneg_bags hi hoff endOffset rows hr
  have hcols := nonneg_width packing table cols hc
  simp [hrows, hcols]

end EmbeddingBag

/-- A tensor constant has no negative size. -/
def Attribute.Nonneg : Attribute → Prop
  | .tensor dims _ => dims.Nonneg
  | _ => True

theorem Constant.proper_constant {value : Attribute} (hv : value.Nonneg)
    (inputs : List ValueInfo) : Ensures AllProper (constant value inputs) := by
  refine .bind fun _ _ => .pure ?_
  cases value with
  | tensor dims elem => simpa [info, Attribute.Nonneg] using hv
  | int => simp [info]
  | float => simp [info]
  | bool => simp [info]
  | none => simp [info]

/-! ### All of them -/

namespace Rule.Kind

/-- A built-in rule makes proper values of proper operands. Only a constant brings sizes of its own,
    so these are asked not to be negative. -/
theorem proper_shapeFn (kind : Kind) {inputs : List ValueInfo} (hp : AllProper inputs)
    {site : CallSite}
    (hc : kind = .constant → ((site.attrs.get? "value").getD .none).Nonneg) :
    Ensures AllProper (kind.shapeFn inputs site) := by
  refine .bind fun rule hr => ?_
  cases kind with
  | unary => cases hr; exact Elementwise.proper_unary hp
  | binary => cases hr; exact Elementwise.proper_binary hp
  | product => cases hr; exact Matrix.proper_product hp
  | batchedProduct => cases hr; exact Matrix.proper_batchedProduct hp
  | addProduct => cases hr; exact Matrix.proper_addProduct hp
  | transpose2d => cases hr; exact AxisOrder.proper_transpose2d hp
  | transpose => cases hr; exact AxisOrder.proper_transpose hp
  | permute => cases hr; exact AxisOrder.proper_permute hp
  | flatten => cases hr; exact Reshape.proper_flatten hp
  | reshape => cases hr; exact Reshape.proper_reshape hp
  | concat => cases hr; exact Concat.proper_concat hp
  | fusedConcat =>
    obtain ⟨dim, -, hr⟩ := Outcome.bind_ok_iff.1 hr
    cases hr
    exact Concat.proper_fusedConcat hp dim
  | stack => cases hr; exact Stack.proper_stack hp
  | fusedStack =>
    obtain ⟨dim, -, hr⟩ := Outcome.bind_ok_iff.1 hr
    cases hr
    exact Stack.proper_fusedStack hp dim
  | chunk => cases hr; exact Chunk.proper_chunk hp
  | constantChunk =>
    obtain ⟨chunks, -, hr⟩ := Outcome.bind_ok_iff.1 hr
    obtain ⟨dim, -, hr⟩ := Outcome.bind_ok_iff.1 hr
    split at hr
    · cases hr
    · cases hr
      exact Chunk.proper_constantChunk hp chunks dim
  | slice => cases hr; exact Slice.proper_slice hp
  | listConstruct => cases hr; exact Listing.proper_construct hp
  | listUnpack => cases hr; exact Listing.proper_unpack hp site.outputCount
  | embeddingBag packing => cases hr; exact EmbeddingBag.proper_pool hp packing site.endOffset
  | constant => cases hr; exact Constant.proper_constant (hc rfl) inputs

end Rule.Kind

namespace RuleBook

/-- The operator whose rule brings in a constant. -/
def constantOp : String := "prim::Constant"

theorem eq_constantOp_of_mem {op : String} {kind : Rule.Kind} (h : (op, kind) ∈ builtinKinds)
    (hk : kind = .constant) : op = constantOp := by
  have hall : ∀ p ∈ builtinKinds, p.2 = .constant → p.1 = constantOp := by decide
  exact hall _ h hk

theorem proper_builtin {op : String} {rule : ShapeFn} (h : builtin.get? op = some rule)
    {inputs : List ValueInfo} (hp : AllProper inputs) {site : CallSite}
    (hc : op = constantOp → ((site.attrs.get? "value").getD .none).Nonneg) :
    Ensures AllProper (rule inputs site) := by
  obtain ⟨kind, hmem, rfl⟩ := exists_kind h
  exact kind.proper_shapeFn hp fun hk => hc (eq_constantOp_of_mem hmem hk)

end RuleBook

end ShapeFlow
