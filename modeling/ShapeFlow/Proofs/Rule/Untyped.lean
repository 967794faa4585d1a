import ShapeFlow.Proofs.Rule.Builtin

/-! Element types play no part in shapes. No reading of a value looks at its element type, so a rule
    does to its operands what it would do to them with their types forgotten: it refuses them for
    the same reason, gives up alike, or makes the same values but for types. The same holds of what
    a rule reads off its node, where the number of a float and the type of a tensor constant can
    be forgotten too. -/

namespace ShapeFlow

/-! ### Values without types -/

/-- The value with its element type forgotten. -/
def ValueInfo.untyped (x : ValueInfo) : ValueInfo := x.withElem none

/-- An outcome with the element types of its values forgotten. -/
def Outcome.untyped (x : Outcome (List ValueInfo)) : Outcome (List ValueInfo) :=
  x.map (List.map ValueInfo.untyped)

namespace Outcome

variable {α β : Type}

/-- Steps from the same result. -/
theorem untyped_bind {x : Outcome α} {f g : α → Outcome (List ValueInfo)}
    (h : ∀ a, untyped (f a) = untyped (g a)) : untyped (x >>= f) = untyped (x >>= g) := by
  cases x with
  | ok a => exact h a
  | error halt => rfl

/-- Steps from a result and from what it is mapped to. -/
theorem untyped_bind_map {x : Outcome α} {φ : α → β} {f : β → Outcome (List ValueInfo)}
    {g : α → Outcome (List ValueInfo)} (h : ∀ a, untyped (f (φ a)) = untyped (g a)) :
    untyped (x.map φ >>= f) = untyped (x >>= g) := by
  cases x with
  | ok a => exact h a
  | error halt => rfl

end Outcome

open Outcome (untyped_bind untyped_bind_map)

theorem ValueInfo.mapM_untyped {α : Type} {f : ValueInfo → Outcome α}
    (hf : ∀ x, f x.untyped = f x) (xs : List ValueInfo) :
    (xs.map untyped).mapM f = xs.mapM f := by
  induction xs with
  | nil => rfl
  | cons x xs ih => rw [List.map_cons, List.mapM_cons, List.mapM_cons, hf, ih]

/-! ### Numbers of operands -/

namespace Operands

variable (f : ValueInfo → ValueInfo) (xs : List ValueInfo)

theorem zero_map : zero (xs.map f) = zero xs := by
  cases xs with
  | nil => rfl
  | cons x xs => simp [zero]

theorem one_map : one (xs.map f) = (one xs).map f := by
  match xs with
  | [] => rfl
  | [_] => rfl
  | _ :: _ :: xs => simp [one, refuse, Except.map]

theorem two_map : two (xs.map f) = (two xs).map fun (a, b) => (f a, f b) := by
  match xs with
  | [] => rfl
  | [_] => rfl
  | [_, _] => rfl
  | _ :: _ :: _ :: xs => simp [two, refuse, Except.map]

theorem three_map : three (xs.map f) = (three xs).map fun (a, b, c) => (f a, f b, f c) := by
  match xs with
  | [] => rfl
  | [_] => rfl
  | [_, _] => rfl
  | [_, _, _] => rfl
  | _ :: _ :: _ :: _ :: xs => simp [three, refuse, Except.map]

theorem five_map :
    five (xs.map f) = (five xs).map fun (a, b, c, d, e) => (f a, f b, f c, f d, f e) := by
  match xs with
  | [] => rfl
  | [_] => rfl
  | [_, _] => rfl
  | [_, _, _] => rfl
  | [_, _, _, _] => rfl
  | [_, _, _, _, _] => rfl
  | _ :: _ :: _ :: _ :: _ :: _ :: xs => simp [five, refuse, Except.map]

theorem twoOrThree_map : twoOrThree (xs.map f) = (twoOrThree xs).map fun (a, b) => (f a, f b) := by
  match xs with
  | [] => rfl
  | [_] => rfl
  | [_, _] => rfl
  | [_, _, _] => rfl
  | _ :: _ :: _ :: _ :: xs => simp [twoOrThree, refuse, Except.map]

theorem oneOrMore_map :
    oneOrMore (xs.map f) = (oneOrMore xs).map fun (a, rest) => (f a, rest.map f) := by
  cases xs <;> rfl

theorem threeOrMore_map :
    threeOrMore (xs.map f) = (threeOrMore xs).map fun (a, b, c) => (f a, f b, f c) := by
  match xs with
  | [] => rfl
  | [_] => rfl
  | [_, _] => rfl
  | _ :: _ :: _ :: _ => rfl

theorem threeOf_map (count : Nat) :
    threeOf count (xs.map f) = (threeOf count xs).map fun (a, b, c) => (f a, f b, f c) := by
  match xs with
  | [] => rfl
  | [_] => rfl
  | [_, _] => rfl
  | _ :: _ :: _ :: rest =>
    simp only [threeOf, List.map_cons, List.length_map]
    split <;> rfl

end Operands

/-! ### Rules -/

section

variable (xs : List ValueInfo)

namespace Elementwise

theorem untyped_unary :
    Outcome.untyped (unary (xs.map ValueInfo.untyped)) = Outcome.untyped (unary xs) := by
  rw [unary, unary, Operands.one_map]
  exact untyped_bind_map fun x => untyped_bind fun dims => rfl

theorem untyped_binary :
    Outcome.untyped (binary (xs.map ValueInfo.untyped)) = Outcome.untyped (binary xs) := by
  rw [binary, binary, Operands.twoOrThree_map]
  exact untyped_bind_map fun (lhs, rhs) => untyped_bind fun dims => rfl

end Elementwise

namespace Matrix

theorem untyped_productOf (lhs rhs : ValueInfo) :
    productOf lhs.untyped rhs.untyped = (productOf lhs rhs).map ValueInfo.untyped := by
  have hl : lhs.untyped.asTensor = lhs.asTensor := rfl
  have hr : rhs.untyped.asTensor = rhs.asTensor := rfl
  rw [productOf, productOf, hl, hr]
  cases lhs.asTensor with
  | error => rfl
  | ok l =>
    cases rhs.asTensor with
    | error => rfl
    | ok r =>
      show (productShape l r >>= _) = Except.map _ (productShape l r >>= _)
      cases productShape l r <;> rfl

theorem untyped_product :
    Outcome.untyped (product (xs.map ValueInfo.untyped)) = Outcome.untyped (product xs) := by
  rw [product, product, Operands.two_map]
  refine untyped_bind_map fun (lhs, rhs) => ?_
  show Outcome.untyped (productOf lhs.untyped rhs.untyped >>= _) = _
  rw [untyped_productOf]
  exact untyped_bind_map fun x => rfl

theorem untyped_batchedProduct :
    Outcome.untyped (batchedProduct (xs.map ValueInfo.untyped))
      = Outcome.untyped (batchedProduct xs) := by
  rw [batchedProduct, batchedProduct, Operands.two_map]
  refine untyped_bind_map fun (lhs, rhs) => untyped_bind fun l => untyped_bind fun r => ?_
  split
  · split
    · rfl
    · split <;> rfl
  · rfl

theorem untyped_addProduct :
    Outcome.untyped (addProduct (xs.map ValueInfo.untyped)) = Outcome.untyped (addProduct xs) := by
  rw [addProduct, addProduct, Operands.threeOrMore_map]
  refine untyped_bind_map fun (input, lhs, rhs) => untyped_bind fun r => ?_
  -- the product is the left factor as it stands, or made of both
  split
  · show Outcome.untyped (Elementwise.shape input lhs >>= _)
      = Outcome.untyped (Elementwise.shape input lhs >>= _)
    exact untyped_bind fun dims => rfl
  · show Outcome.untyped (productOf lhs.untyped rhs.untyped >>= _) = _
    rw [untyped_productOf]
    exact untyped_bind_map fun product => untyped_bind fun dims => rfl

end Matrix

namespace AxisOrder

theorem untyped_transpose2d :
    Outcome.untyped (transpose2d (xs.map ValueInfo.untyped))
      = Outcome.untyped (transpose2d xs) := by
  rw [transpose2d, transpose2d, Operands.one_map]
  refine untyped_bind_map fun x => untyped_bind fun dims => ?_
  match dims with
  | [] => rfl
  | [_] => rfl
  | [_, _] => rfl
  | _ :: _ :: _ :: _ => rfl

theorem untyped_transpose :
    Outcome.untyped (transpose (xs.map ValueInfo.untyped)) = Outcome.untyped (transpose xs) := by
  rw [transpose, transpose, Operands.three_map]
  exact untyped_bind_map fun (x, first, second) => untyped_bind fun dims => untyped_bind fun a =>
    untyped_bind fun i => untyped_bind fun b => untyped_bind fun j => untyped_bind fun _ => rfl

theorem untyped_permute :
    Outcome.untyped (permute (xs.map ValueInfo.untyped)) = Outcome.untyped (permute xs) := by
  rw [permute, permute, Operands.two_map]
  refine untyped_bind_map fun (x, order) => untyped_bind fun dims => untyped_bind fun perm => ?_
  split
  · rfl
  · exact untyped_bind fun _ => rfl

end AxisOrder

namespace Reshape

theorem untyped_flatten :
    Outcome.untyped (flatten (xs.map ValueInfo.untyped)) = Outcome.untyped (flatten xs) := by
  rw [flatten, flatten, Operands.three_map]
  refine untyped_bind_map fun (x, first, last) => untyped_bind fun dims => ?_
  split
  · rfl
  · refine untyped_bind fun a => untyped_bind fun i => untyped_bind fun b => untyped_bind fun j => ?_
    split
    · rfl
    · exact untyped_bind fun _ => untyped_bind fun _ => untyped_bind fun _ => untyped_bind fun _ =>
        rfl

theorem untyped_reshape :
    Outcome.untyped (reshape (xs.map ValueInfo.untyped)) = Outcome.untyped (reshape xs) := by
  rw [reshape, reshape, Operands.two_map]
  refine untyped_bind_map fun operands => ?_
  obtain ⟨x, shape⟩ := operands
  refine untyped_bind fun target => untyped_bind fun dims => untyped_bind fun count =>
    untyped_bind fun s => untyped_bind fun divides => ?_
  split
  · exact untyped_bind fun _ => rfl
  · rfl

end Reshape

namespace Concat

theorem untyped_concat :
    Outcome.untyped (concat (xs.map ValueInfo.untyped)) = Outcome.untyped (concat xs) := by
  rw [concat, concat, Operands.two_map]
  refine untyped_bind_map fun (list, axis) => untyped_bind fun parts => ?_
  split
  · rfl
  · exact untyped_bind fun _ => untyped_bind fun _ => rfl

theorem untyped_fusedConcat (dim : Int) :
    Outcome.untyped (fusedConcat dim (xs.map ValueInfo.untyped))
      = Outcome.untyped (fusedConcat dim xs) := by
  rw [fusedConcat, fusedConcat, Operands.oneOrMore_map, ValueInfo.mapM_untyped fun _ => rfl]
  exact untyped_bind_map fun (first, _) => untyped_bind fun _ => untyped_bind fun _ => rfl

end Concat

namespace Stack

theorem untyped_stack :
    Outcome.untyped (stack (xs.map ValueInfo.untyped)) = Outcome.untyped (stack xs) := by
  rw [stack, stack, Operands.two_map]
  exact untyped_bind_map fun (list, dim) => untyped_bind fun _ => untyped_bind fun _ =>
    untyped_bind fun _ => untyped_bind fun _ => rfl

theorem untyped_fusedStack (dim : Int) :
    Outcome.untyped (fusedStack dim (xs.map ValueInfo.untyped))
      = Outcome.untyped (fusedStack dim xs) := by
  rw [fusedStack, fusedStack, Operands.oneOrMore_map]
  refine untyped_bind_map fun (first, rest) => ?_
  cases rest with
  | nil => rfl
  | cons second rest =>
    refine untyped_bind fun front => ?_
    rw [ValueInfo.mapM_untyped fun _ => rfl]
    exact untyped_bind fun _ => untyped_bind fun _ => untyped_bind fun _ => rfl

end Stack

namespace Chunk

theorem untyped_chunk :
    Outcome.untyped (chunk (xs.map ValueInfo.untyped)) = Outcome.untyped (chunk xs) := by
  rw [chunk, chunk, Operands.three_map]
  exact untyped_bind_map fun (x, count, axis) => untyped_bind fun _ => untyped_bind fun _ =>
    untyped_bind fun _ => untyped_bind fun _ => rfl

theorem untyped_constantChunk (chunks dim : Int) :
    Outcome.untyped (constantChunk chunks dim (xs.map ValueInfo.untyped))
      = Outcome.untyped (constantChunk chunks dim xs) := by
  rw [constantChunk, constantChunk, Operands.one_map]
  refine untyped_bind_map fun x => untyped_bind fun _ => untyped_bind fun parts => ?_
  exact congrArg Except.ok (by rw [List.map_map, List.map_map]; rfl)

end Chunk

theorem Slice.untyped_slice :
    Outcome.untyped (slice (xs.map ValueInfo.untyped)) = Outcome.untyped (slice xs) := by
  rw [slice, slice, Operands.five_map]
  refine untyped_bind_map fun (x, dim, first, last, stride) => untyped_bind fun dims =>
    untyped_bind fun _ => untyped_bind fun axis => untyped_bind fun start =>
    untyped_bind fun stop => untyped_bind fun step => ?_
  split
  · rfl
  · exact untyped_bind fun _ => untyped_bind fun _ => untyped_bind fun _ => rfl

namespace Listing

theorem untyped_construct :
    Outcome.untyped (construct (xs.map ValueInfo.untyped)) = Outcome.untyped (construct xs) := by
  rw [construct, construct, Operands.oneOrMore_map, ValueInfo.mapM_untyped fun _ => rfl,
    ValueInfo.mapM_untyped fun _ => rfl]
  refine untyped_bind_map fun (first, _) => ?_
  show Outcome.untyped (if first.isSingle = true then _ else _) = Outcome.untyped (if _ then _ else _)
  split <;> exact untyped_bind fun _ => rfl

theorem untyped_unpack (count : Nat) :
    Outcome.untyped (unpack count (xs.map ValueInfo.untyped))
      = Outcome.untyped (unpack count xs) := by
  rw [unpack, unpack, Operands.one_map]
  refine untyped_bind_map fun list => untyped_bind fun shapes => ?_
  split
  · rfl
  · exact congrArg Except.ok (by rw [List.map_map, List.map_map]; rfl)

end Listing

theorem EmbeddingBag.untyped_pool (packing : Packing) (endOffset : Bool) :
    Outcome.untyped (pool packing endOffset (xs.map ValueInfo.untyped))
      = Outcome.untyped (pool packing endOffset xs) := by
  rw [pool, pool, Operands.threeOf_map]
  exact untyped_bind_map fun (table, indices, offsets) => untyped_bind fun _ =>
    untyped_bind fun _ => rfl

end

/-! ### Constants of a node -/

/-- What shapes can depend on: all of a constant but the number of a float and the element type of a
    tensor. -/
def Attribute.outline : Attribute → Attribute
  | .float _ => .float ⟨0⟩
  | .tensor dims _ => .tensor dims .float
  | .int value => .int value
  | .bool value => .bool value
  | .none => .none

/-- The outlines of constants, under their names. -/
def Attributes.outline (attrs : Attributes) : Attributes :=
  ⟨attrs.entries.map fun p => (p.1, p.2.outline)⟩

/-- A call site with the outlines of its constants. -/
def CallSite.outline (site : CallSite) : CallSite := { site with attrs := site.attrs.outline }

/-- A rule with the outline of its constant. -/
def Rule.outline : Rule → Rule
  | .constant value => .constant value.outline
  | rule => rule

theorem Attributes.get?_outline (attrs : Attributes) (name : String) :
    attrs.outline.get? name = (attrs.get? name).map Attribute.outline := by
  obtain ⟨entries⟩ := attrs
  show Keyed.findIn name (entries.map _) = (Keyed.findIn name entries).map _
  induction entries with
  | nil => rfl
  | cons p entries ih =>
    rw [List.map_cons, Keyed.findIn, Keyed.findIn, ih]
    split <;> rfl

theorem CallSite.int?_outline (site : CallSite) (name : String) :
    site.outline.int? name = site.int? name := by
  have hget : site.outline.attrs.get? name = (site.attrs.get? name).map Attribute.outline :=
    site.attrs.get?_outline name
  rw [int?, int?, hget]
  cases site.attrs.get? name with
  | none => rfl
  | some value => cases value <;> rfl

theorem CallSite.requiredInt_outline (site : CallSite) (name : String) :
    site.outline.requiredInt name = site.requiredInt name := by
  rw [requiredInt, requiredInt, int?_outline]

/-- A rule is read off the outlines of constants as its outline. -/
theorem Rule.Kind.ruleAt_outline (kind : Rule.Kind) (site : CallSite) :
    kind.ruleAt site.outline = (kind.ruleAt site).map Rule.outline := by
  cases kind with
  | fusedConcat =>
    rw [ruleAt, ruleAt, CallSite.requiredInt_outline]
    cases site.requiredInt "dim" <;> rfl
  | fusedStack =>
    rw [ruleAt, ruleAt, CallSite.requiredInt_outline]
    cases site.requiredInt "dim" <;> rfl
  | constantChunk =>
    rw [ruleAt, ruleAt, constantChunkAt, constantChunkAt, CallSite.requiredInt_outline,
      CallSite.requiredInt_outline]
    cases site.requiredInt "chunks" with
    | error halt => rfl
    | ok chunks =>
      cases site.requiredInt "dim" with
      | error halt => rfl
      | ok dim =>
        show (if 0 < chunks ∧ chunks.toNat ≠ site.outputCount then _ else _)
          = Except.map _ (if 0 < chunks ∧ chunks.toNat ≠ site.outputCount then _ else _)
        split <;> rfl
  | constant =>
    rw [ruleAt, ruleAt]
    show Except.ok (Rule.constant ((site.attrs.outline.get? "value").getD .none)) = _
    rw [Attributes.get?_outline]
    cases site.attrs.get? "value" <;> rfl
  | _ => rfl

theorem Constant.untyped_constant (value : Attribute) (xs : List ValueInfo) :
    Outcome.untyped (constant value.outline (xs.map ValueInfo.untyped))
      = Outcome.untyped (constant value xs) := by
  rw [constant, constant, Operands.zero_map]
  refine untyped_bind fun _ => ?_
  cases value <;> rfl

/-! ### All rules -/

/-- UNTYPED: a rule does to its operands what its outline would do to them without element types, but
    for the element types of what it makes. -/
theorem Rule.untyped_infer (rule : Rule) (xs : List ValueInfo) :
    Outcome.untyped (rule.outline.infer (xs.map ValueInfo.untyped))
      = Outcome.untyped (rule.infer xs) := by
  cases rule with
  | unary => exact Elementwise.untyped_unary xs
  | binary => exact Elementwise.untyped_binary xs
  | product => exact Matrix.untyped_product xs
  | batchedProduct => exact Matrix.untyped_batchedProduct xs
  | addProduct => exact Matrix.untyped_addProduct xs
  | transpose2d => exact AxisOrder.untyped_transpose2d xs
  | transpose => exact AxisOrder.untyped_transpose xs
  | permute => exact AxisOrder.untyped_permute xs
  | flatten => exact Reshape.untyped_flatten xs
  | reshape => exact Reshape.untyped_reshape xs
  | concat => exact Concat.untyped_concat xs
  | fusedConcat dim => exact Concat.untyped_fusedConcat xs dim
  | stack => exact Stack.untyped_stack xs
  | fusedStack dim => exact Stack.untyped_fusedStack xs dim
  | chunk => exact Chunk.untyped_chunk xs
  | constantChunk chunks dim => exact Chunk.untyped_constantChunk xs chunks dim
  | slice => exact Slice.untyped_slice xs
  | listConstruct => exact Listing.untyped_construct xs
  | listUnpack count => exact Listing.untyped_unpack xs count
  | embeddingBag packing endOffset => exact EmbeddingBag.untyped_pool xs packing endOffset
  | constant value => exact Constant.untyped_constant value xs

/-- So does every shape function of the built-in book, at the outline of a call site. -/
theorem RuleBook.untyped_builtin {op : String} {rule : ShapeFn} (h : builtin.get? op = some rule)
    (xs : List ValueInfo) (site : CallSite) :
    Outcome.untyped (rule (xs.map ValueInfo.untyped) site.outline)
      = Outcome.untyped (rule xs site) := by
  obtain ⟨kind, -, rfl⟩ := exists_kind h
  rw [Rule.Kind.shapeFn, Rule.Kind.ruleAt_outline]
  exact untyped_bind_map fun rule => rule.untyped_infer xs

end ShapeFlow
