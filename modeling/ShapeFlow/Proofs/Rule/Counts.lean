import ShapeFlow.Proofs.Outcome
import ShapeFlow.RuleBook

/-! How many values the built-in rules make. Two of them take one operand apart and make a value for
    each output of the node; all others make one value, however many outputs the node has. So what
    such a node makes beyond its first output is never described. -/

namespace ShapeFlow

/-- One value. -/
abbrev Single (made : List ValueInfo) : Prop := made.length = 1

/-! ### Rules that make one value -/

namespace Elementwise

theorem single_unary (inputs : List ValueInfo) : Ensures Single (unary inputs) :=
  .bind fun _ _ => .bind fun _ _ => .pure rfl

theorem single_binary (inputs : List ValueInfo) : Ensures Single (binary inputs) :=
  .bind fun ⟨_, _⟩ _ => .bind fun _ _ => .pure rfl

end Elementwise

namespace Matrix

theorem single_product (inputs : List ValueInfo) : Ensures Single (product inputs) :=
  .bind fun ⟨_, _⟩ _ => .bind fun _ _ => .pure rfl

theorem single_batchedProduct (inputs : List ValueInfo) :
    Ensures Single (batchedProduct inputs) := by
  refine .bind fun ⟨lhs, rhs⟩ _ => .bind fun l _ => .bind fun r _ => ?_
  split
  · split
    · exact .refuse _
    · split
      · exact .refuse _
      · exact .pure rfl
  · exact .refuse _

theorem single_addProduct (inputs : List ValueInfo) : Ensures Single (addProduct inputs) := by
  refine .bind fun ⟨input, lhs, rhs⟩ _ => .bind fun r _ => ?_
  dsimp only
  split
  · exact .bind fun _ _ => .bind fun _ _ => .pure rfl
  · exact .bind fun _ _ => .bind fun _ _ => .pure rfl

end Matrix

namespace AxisOrder

theorem single_transpose2d (inputs : List ValueInfo) : Ensures Single (transpose2d inputs) := by
  refine .bind fun x _ => .bind fun dims _ => ?_
  split
  · exact .pure rfl
  · exact .pure rfl
  · exact .pure rfl
  · exact .refuse _

theorem single_transpose (inputs : List ValueInfo) : Ensures Single (transpose inputs) :=
  .bind fun ⟨_, _, _⟩ _ => .bind fun _ _ => .bind fun _ _ => .bind fun _ _ =>
    .bind fun _ _ => .bind fun _ _ => .bind fun _ _ => .pure rfl

theorem single_permute (inputs : List ValueInfo) : Ensures Single (permute inputs) := by
  refine .bind fun ⟨x, order⟩ _ => .bind fun dims _ => .bind fun perm _ => ?_
  split
  · exact .refuse _
  · exact .bind fun _ _ => .pure rfl

end AxisOrder

namespace Reshape

theorem single_flatten (inputs : List ValueInfo) : Ensures Single (flatten inputs) := by
  refine .bind fun ⟨x, first, last⟩ _ => .bind fun dims _ => ?_
  split
  · exact .pure rfl
  refine .bind fun _ _ => .bind fun i _ => .bind fun _ _ => .bind fun j _ => ?_
  split
  · exact .refuse _
  · exact .bind fun _ _ => .bind fun _ _ => .bind fun _ _ => .bind fun _ _ => .pure rfl

theorem single_reshape (inputs : List ValueInfo) : Ensures Single (reshape inputs) := by
  refine .bind fun ⟨x, shape⟩ _ => .bind fun target _ => .bind fun dims _ => ?_
  refine .bind fun count _ => .bind fun s _ => .bind fun fits _ => ?_
  cases fits with
  | true => exact .bind fun _ _ => .pure rfl
  | false => exact .refuse _

end Reshape

namespace Concat

theorem single_concat (inputs : List ValueInfo) : Ensures Single (concat inputs) := by
  refine .bind fun ⟨list, axis⟩ _ => .bind fun parts _ => ?_
  split
  · exact .pure rfl
  · exact .bind fun _ _ => .bind fun _ _ => .pure rfl

theorem single_fusedConcat (dim : Int) (inputs : List ValueInfo) :
    Ensures Single (fusedConcat dim inputs) :=
  .bind fun ⟨_, _⟩ _ => .bind fun _ _ => .bind fun _ _ => .pure rfl

end Concat

namespace Stack

theorem single_stack (inputs : List ValueInfo) : Ensures Single (stack inputs) :=
  .bind fun ⟨_, _⟩ _ => .bind fun _ _ => .bind fun _ _ => .bind fun _ _ => .bind fun _ _ => .pure rfl

theorem single_fusedStack (dim : Int) (inputs : List ValueInfo) :
    Ensures Single (fusedStack dim inputs) := by
  refine .bind fun ⟨first, rest⟩ _ => ?_
  cases rest with
  | nil => exact .pure rfl
  | cons => exact .bind fun _ _ => .bind fun _ _ => .bind fun _ _ => .bind fun _ _ => .pure rfl

end Stack

theorem Chunk.single_chunk (inputs : List ValueInfo) : Ensures Single (chunk inputs) :=
  .bind fun ⟨_, _, _⟩ _ => .bind fun _ _ => .bind fun _ _ => .bind fun _ _ => .bind fun _ _ => .pure rfl

theorem Slice.single_slice (inputs : List ValueInfo) : Ensures Single (slice inputs) := by
  refine .bind fun ⟨_, _, _, _, _⟩ _ => .bind fun _ _ => .bind fun _ _ => .bind fun _ _ => ?_
  refine .bind fun _ _ => .bind fun _ _ => .bind fun _ _ => ?_
  split
  · exact .refuse _
  · exact .bind fun _ _ => .bind fun _ _ => .bind fun _ _ => .pure rfl

theorem Listing.single_construct (inputs : List ValueInfo) : Ensures Single (construct inputs) := by
  refine .bind fun ⟨first, _⟩ _ => ?_
  dsimp only
  split
  · exact .bind fun _ _ => .pure rfl
  · exact .bind fun _ _ => .pure rfl

theorem EmbeddingBag.single_pool (packing : Packing) (endOffset : Bool) (inputs : List ValueInfo) :
    Ensures Single (pool packing endOffset inputs) :=
  .bind fun ⟨_, _, _⟩ _ => .bind fun _ _ => .bind fun _ _ => .pure rfl

theorem Constant.single_constant (value : Attribute) (inputs : List ValueInfo) :
    Ensures Single (constant value inputs) :=
  .bind fun _ _ => .pure rfl

/-! ### Rules that take an operand apart -/

namespace Chunk

/-- An axis is split into as many chunks as are asked for. -/
theorem length_sizes (size chunks : Int) :
    Ensures (fun parts => parts.length = chunks.toNat) (sizes size chunks) := by
  rw [sizes]
  split
  · exact .refuse _
  split
  · exact .refuse _
  split
  · split
    · next h => exact .pure (by rw [h]; rfl)
    · exact .refuse _
  split
  · exact .refuse _
  refine .bind fun n _ => .bind fun q _ => .bind fun each _ => .bind fun leading hl => ?_
  obtain ⟨-, rfl⟩ := Word.checked_eq_ok_iff.1 hl
  split
  · exact .refuse _
  split
  · refine .bind fun last _ => .pure ?_
    rw [List.length_append, List.length_replicate, List.length_singleton]
    omega
  · exact .refuse _

theorem length_shapes (dims : Dims) (chunks dim : Int) :
    Ensures (fun parts => parts.length = chunks.toNat) (shapes dims chunks dim) := by
  refine .bind fun axis _ => .bind fun size _ => .bind fun parts hp => ?_
  exact fun shapes hs => (Ensures.mapM _ parts shapes hs).trans (length_sizes size chunks parts hp)

theorem length_constantChunk (chunks dim : Int) (inputs : List ValueInfo) :
    Ensures (fun made => made.length = chunks.toNat) (constantChunk chunks dim inputs) :=
  .bind fun _ _ => .bind fun dims _ => .bind fun parts hp =>
    .pure ((List.length_map _).trans (length_shapes dims chunks dim parts hp))

/-- A count that is not positive is refused, so the chunks are never none. -/
theorem pos_of_constantChunk {chunks dim : Int} {inputs made : List ValueInfo}
    (h : constantChunk chunks dim inputs = .ok made) : 0 < chunks := by
  obtain ⟨x, -, h⟩ := Outcome.bind_ok_iff.1 h
  obtain ⟨dims, -, h⟩ := Outcome.bind_ok_iff.1 h
  obtain ⟨shapes, hs, -⟩ := Outcome.bind_ok_iff.1 h
  obtain ⟨axis, -, hs⟩ := Outcome.bind_ok_iff.1 hs
  obtain ⟨size, -, hs⟩ := Outcome.bind_ok_iff.1 hs
  obtain ⟨parts, hp, -⟩ := Outcome.bind_ok_iff.1 hs
  rw [sizes] at hp
  split at hp
  · cases hp
  · omega

end Chunk

theorem Listing.length_unpack (count : Nat) (inputs : List ValueInfo) :
    Ensures (fun made => made.length = count) (unpack count inputs) := by
  refine .bind fun list _ => .bind fun shapes _ => ?_
  split
  · exact .refuse _
  · next h => exact .pure ((List.length_map _).trans (not_not.1 h))

/-! ### All of them -/

namespace Rule.Kind

/-- The rule makes a value for each output of its node. -/
def spreads : Kind → Bool
  | constantChunk => true
  | listUnpack => true
  | _ => false

/-- A built-in rule describes all outputs of its node, or the first one alone. -/
theorem length_shapeFn (kind : Kind) (inputs : List ValueInfo) (site : CallSite) :
    Ensures (fun made => made.length = if kind.spreads then site.outputCount else 1)
      (kind.shapeFn inputs site) := by
  refine .bind fun rule hr => ?_
  cases kind with
  | unary => cases hr; exact Elementwise.single_unary inputs
  | binary => cases hr; exact Elementwise.single_binary inputs
  | product => cases hr; exact Matrix.single_product inputs
  | batchedProduct => cases hr; exact Matrix.single_batchedProduct inputs
  | addProduct => cases hr; exact Matrix.single_addProduct inputs
  | transpose2d => cases hr; exact AxisOrder.single_transpose2d inputs
  | transpose => cases hr; exact AxisOrder.single_transpose inputs
  | permute => cases hr; exact AxisOrder.single_permute inputs
  | flatten => cases hr; exact Reshape.single_flatten inputs
  | reshape => cases hr; exact Reshape.single_reshape inputs
  | concat => cases hr; exact Concat.single_concat inputs
  | fusedConcat =>
    obtain ⟨dim, -, hr⟩ := Outcome.bind_ok_iff.1 hr
    cases hr
    exact Concat.single_fusedConcat dim inputs
  | stack => cases hr; exact Stack.single_stack inputs
  | fusedStack =>
    obtain ⟨dim, -, hr⟩ := Outcome.bind_ok_iff.1 hr
    cases hr
    exact Stack.single_fusedStack dim inputs
  | chunk => cases hr; exact Chunk.single_chunk inputs
  | constantChunk =>
    obtain ⟨chunks, -, hr⟩ := Outcome.bind_ok_iff.1 hr
    obtain ⟨dim, -, hr⟩ := Outcome.bind_ok_iff.1 hr
    split at hr
    · cases hr
    · next hc =>
      cases hr
      intro made hm
      have hpos := Chunk.pos_of_constantChunk hm
      rw [Chunk.length_constantChunk chunks dim inputs made hm]
      exact not_not.1 fun hne => hc ⟨hpos, hne⟩
  | slice => cases hr; exact Slice.single_slice inputs
  | listConstruct => cases hr; exact Listing.single_construct inputs
  | listUnpack => cases hr; exact Listing.length_unpack site.outputCount inputs
  | embeddingBag packing => cases hr; exact EmbeddingBag.single_pool packing site.endOffset inputs
  | constant => cases hr; exact Constant.single_constant _ inputs

end Rule.Kind

end ShapeFlow
