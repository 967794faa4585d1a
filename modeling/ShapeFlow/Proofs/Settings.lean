import ShapeFlow.Proofs.Evaluation
import ShapeFlow.Proofs.Rule.Builtin
import ShapeFlow.Proofs.Rule.Pooling

/-! What the settings of a run decide. The mark only tells whether a node may hold a graph, the dump only
    adds a record, and the end offset goes to every rule but is looked at by embedding bags alone, and
    by these only where the indices have rank 1 and the offsets say where the bags begin. So two runs
    whose marks are on all fused nodes end alike unless one of them comes to such a bag. -/

namespace ShapeFlow

/-! ### Rules and the end offset -/

namespace EmbeddingBag

theorem pool_endOffset {inputs : List ValueInfo}
    (h : ∀ indices size, inputs[1]? = some indices → indices.asTensor ≠ .ok [size])
    (packing : Packing) (b b' : Bool) : pool packing b inputs = pool packing b' inputs := by
  match inputs with
  | [] => rfl
  | [_] => rfl
  | [_, _] => rfl
  | table :: indices :: offsets :: rest =>
    exact pool_congr (fun size => h indices size rfl) packing table offsets offsets rest b b'

end EmbeddingBag

namespace Rule.Kind

/-- The rule is that of an embedding bag. -/
def pools : Kind → Bool
  | embeddingBag _ => true
  | _ => false

/-- A rule does the same with and without an end offset, but for embedding bags with indices of rank 1. -/
theorem shapeFn_endOffset {kind : Kind} {given : List ValueInfo}
    (h : kind.pools → ∀ indices size, given[1]? = some indices → indices.asTensor ≠ .ok [size])
    (op : String) (attrs : Attributes) (count : Nat) (b b' : Bool) :
    kind.shapeFn given ⟨op, attrs, count, b⟩ = kind.shapeFn given ⟨op, attrs, count, b'⟩ := by
  cases kind with
  | embeddingBag packing => exact EmbeddingBag.pool_endOffset (h rfl) packing b b'
  | _ => rfl

end Rule.Kind

namespace RuleBook

/-- The operators that are embedding bags. -/
def pooling : List String :=
  ["aten::embedding_bag", "fb::embedding_bag_byte_rowwise_offsets",
    "quantized::embedding_bag_byte_rowwise_offsets", "fb::embedding_bag_4bit_rowwise_offsets",
    "quantized::embedding_bag_4bit_rowwise_offsets"]

theorem pools_iff_of_mem {op : String} {kind : Rule.Kind} (h : (op, kind) ∈ builtinKinds) :
    kind.pools = true ↔ op ∈ pooling := by
  have hall : ∀ p ∈ builtinKinds, p.2.pools = true ↔ p.1 ∈ pooling := by decide
  exact hall _ h

end RuleBook

/-! ### Runs under two settings -/

/-- The node is an embedding bag, and the indices that it reads have rank 1. -/
def Node.PoolsByOffsets (n : Node) (given : List ValueInfo) : Prop :=
  n.inner?.isNone ∧ n.op ∈ RuleBook.pooling ∧
    ∃ indices size, given[1]? = some indices ∧ indices.asTensor = .ok [size]

/-- Settings whose marks are on a fused node do the same at it, and settings of any kind do the same at
    a plain node that does not pool by offsets. -/
theorem Setup.agreeAt_of_marks {options options' : Options} {n : Node} {given : List ValueInfo}
    (hm : n.inner?.isSome → options.marks n.op ∧ options'.marks n.op)
    (hb : ¬ n.PoolsByOffsets given) :
    Setup.AgreeAt ⟨.builtin, options⟩ ⟨.builtin, options'⟩ n given := by
  rw [AgreeAt]
  split
  · next attrs hbody =>
    rw [Walk.applyRule, Walk.applyRule]
    cases hrule : RuleBook.builtin.get? n.label.op with
    | none => rfl
    | some rule =>
      obtain ⟨kind, hmem, rfl⟩ := RuleBook.exists_kind hrule
      have hflat : kind.pools → ∀ indices size, given[1]? = some indices →
          indices.asTensor ≠ .ok [size] := fun hk indices size hi hd =>
        hb ⟨by simp [Node.inner?, hbody], (RuleBook.pools_iff_of_mem hmem).1 hk,
          indices, size, hi, hd⟩
      simp only [kind.shapeFn_endOffset hflat n.label.op attrs n.outputs.length options.endOffset
        options'.endOffset]
  · next inner hbody =>
    obtain ⟨h, h'⟩ := hm (by simp [Node.inner?, hbody])
    have hop : n.label.op = n.op := rfl
    rw [Walk.seeds, Walk.seeds, hop, if_pos h, if_pos h']

/-- SETTINGS: where the marks of both settings are on every fused node, at any depth, and the run under
    the first comes to no embedding bag with indices of rank 1, the run under the second ends alike:
    with the same report, the same error or the same fault. -/
theorem Graph.infer_settings {options options' : Options} {g : Graph} {inputs : List RuntimeInput}
    (hmarks : ∀ h, g.Holds h → ∀ n ∈ h.nodes, n.inner?.isSome →
      options.marks n.op ∧ options'.marks n.op)
    (hbags : ∀ n given, Run.Evaluates ⟨.builtin, options⟩ g inputs n given →
      ¬ n.PoolsByOffsets given) :
    (g.infer ⟨.builtin, options⟩ inputs).outcome
      = (g.infer ⟨.builtin, options'⟩ inputs).outcome := by
  have hreport : Run.report ⟨.builtin, options⟩ g inputs
      = Run.report ⟨.builtin, options'⟩ g inputs := by
    refine Run.report_congr fun n given he => ?_
    obtain ⟨h, hh, hn⟩ := he.exists_holds
    exact Setup.agreeAt_of_marks (hmarks h hh n hn) (hbags n given he)
  rw [Run.outcome_infer, Run.outcome_infer, hreport]

/-! ### A bag with indices of rank 2 -/

/-- What a fused operator makes of a table, pooled by the rows of the indices. -/
def pooledGraph : Graph :=
  (((Graph.empty.withInput "table" ⟨0⟩).withInput "indices" ⟨1⟩).withInput "offsets" ⟨2⟩)
    |>.withNode "glow::FusionGroup" [⟨0⟩] (.fused (singleGraph "aten::relu")) [⟨3⟩]
    |>.withNode "aten::embedding_bag" [⟨3⟩, ⟨1⟩, ⟨2⟩, ⟨2⟩, ⟨2⟩, ⟨2⟩, ⟨2⟩, ⟨2⟩]
      (.plain Keyed.empty) [⟨4⟩]
    |>.addOutput ⟨4⟩

/-- The only bag of the graph is given indices of the rank of the second input. -/
theorem not_poolsByOffsets_pooledGraph {n : Node} {given : List ValueInfo}
    (h : Run.Evaluates ⟨.builtin, .default⟩ pooledGraph
      [.tensor [9, 4] .float, .tensor [2, 3] .int64, .tensor [5] .int64] n given) :
    ¬ n.PoolsByOffsets given := by
  rintro ⟨hplain, hop, indices, size, hi, hd⟩
  obtain ⟨taken, ht, labels, c, done, rest, t, he, hat, hr⟩ := h
  cases ht
  cases he with
  | self =>
    obtain ⟨hsplit, hpast⟩ := hat
    match done with
    | [] =>
      obtain ⟨rfl, -⟩ := List.cons.inj hsplit
      cases hplain
    | [m] =>
      obtain ⟨rfl, htail⟩ := List.cons.inj hsplit
      obtain ⟨rfl, -⟩ := List.cons.inj htail
      cases hpast
      cases hr
      cases hi
      cases hd
    | _ :: _ :: done =>
      obtain ⟨-, htail⟩ := List.cons.inj hsplit
      obtain ⟨-, htail⟩ := List.cons.inj htail
      simp at htail
  | @inside _ _ before after m _ inner _ _ _ hat' hb' _ _ he' =>
    -- the fused node holds no bag
    have hm : m ∈ pooledGraph.nodes := hat'.mem
    have huses : inner.Uses n.op := ⟨c.graph, he'.holds, n, hat.mem, hplain, rfl⟩
    rcases List.mem_cons.1 hm with rfl | hm
    · cases hb'
      exact absurd huses ((by decide : ∀ op ∈ RuleBook.pooling,
        ¬ (singleGraph "aten::relu").Uses op) n.op hop)
    · obtain rfl := List.mem_singleton.1 hm
      cases hb'

/-- Another mark of the same nodes, no end offset and a dump. -/
theorem Graph.infer_settings_pooledGraph :
    ∃ r, (pooledGraph.infer ⟨.builtin, .default⟩
        [.tensor [9, 4] .float, .tensor [2, 3] .int64, .tensor [5] .int64]).outcome = .ok r ∧
      (pooledGraph.infer ⟨.builtin, ⟨"glow", false, true⟩⟩
        [.tensor [9, 4] .float, .tensor [2, 3] .int64, .tensor [5] .int64]).outcome = .ok r ∧
      r.outputs = [.tensor [2, 4] (some .float)] := by
  refine ⟨_, rfl, ?_, rfl⟩
  refine (Graph.infer_settings (fun h hh n hn hf => ?_) fun n given he =>
    not_poolsByOffsets_pooledGraph he).symm
  have hmarked : ∀ m ∈ pooledGraph.allNodes, m.inner?.isSome →
      Options.default.marks m.op ∧ Options.marks ⟨"glow", false, true⟩ m.op := by decide
  exact Graph.forall_holds_iff.2 hmarked h hh n hn hf

/-- Indices of rank 1 tell the two settings apart. -/
example :
    (pooledGraph.infer ⟨.builtin, .default⟩
        [.tensor [9, 4] .float, .tensor [7] .int64, .tensor [5] .int64]).outcome.map (·.outputs)
      = .ok [.tensor [4, 4] (some .float)] ∧
    (pooledGraph.infer ⟨.builtin, ⟨"glow", false, true⟩⟩
        [.tensor [9, 4] .float, .tensor [7] .int64, .tensor [5] .int64]).outcome.map (·.outputs)
      = .ok [.tensor [5, 4] (some .float)] := ⟨rfl, rfl⟩

end ShapeFlow
