import ShapeFlow.Rule

/-! Which rule an operator has. A book maps operator identities to shape functions; writing under an
    identity that has one replaces it. -/

namespace ShapeFlow

/-- What an operator makes of its operands at a node. -/
abbrev ShapeFn := List ValueInfo → CallSite → Outcome (List ValueInfo)

/-- Shape functions by operator identity. -/
abbrev RuleBook := Keyed ShapeFn

/-- Reads the rule off the node, then applies it. -/
def Rule.Kind.shapeFn (kind : Rule.Kind) : ShapeFn := fun inputs site => do
  let rule ← kind.ruleAt site
  rule.infer inputs

namespace RuleBook

/-- The identities with a built-in rule. -/
def builtinKinds : List (String × Rule.Kind) := [
  ("aten::tanh", .unary),
  ("aten::relu", .unary),
  ("aten::sigmoid", .unary),
  ("aten::add", .binary),
  ("aten::sub", .binary),
  ("aten::mul", .binary),
  ("aten::pow", .binary),
  ("aten::mm", .product),
  ("aten::bmm", .batchedProduct),
  ("aten::addmm", .addProduct),
  ("aten::t", .transpose2d),
  ("aten::transpose", .transpose),
  ("aten::flatten", .flatten),
  ("aten::cat", .concat),
  ("prim::FusedConcat", .fusedConcat),
  ("prim::ConstantChunk", .constantChunk),
  ("aten::chunk", .chunk),
  ("aten::slice", .slice),
  ("aten::reshape", .reshape),
  ("aten::permute", .permute),
  ("prim::ListConstruct", .listConstruct),
  ("prim::ListUnpack", .listUnpack),
  ("aten::stack", .stack),
  ("glow::fused_stack", .fusedStack),
  ("aten::embedding_bag", .embeddingBag .plain),
  ("fb::embedding_bag_byte_rowwise_offsets", .embeddingBag .byteRow),
  ("quantized::embedding_bag_byte_rowwise_offsets", .embeddingBag .byteRow),
  ("fb::embedding_bag_4bit_rowwise_offsets", .embeddingBag .fourBitRow),
  ("quantized::embedding_bag_4bit_rowwise_offsets", .embeddingBag .fourBitRow),
  ("prim::Constant", .constant)]

/-- The book with all built-in rules. -/
def builtin : RuleBook :=
  Keyed.empty.setAll (builtinKinds.map fun p => (p.1, p.2.shapeFn))

end RuleBook

end ShapeFlow
