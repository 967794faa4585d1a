import ShapeFlow.Proofs.Failure
import ShapeFlow.Proofs.Rule.Builtin

/-! How much nodes make. Under the built-in book a node makes one value, or as many as it has outputs,
    and a fused node makes as many as it has outputs or fails. So where every plain node has an output
    no node ever makes too much, in the outermost graph or further in, and the error over too many
    values is not reported. -/

namespace ShapeFlow

/-! ### Errors over too many values -/

namespace InferenceError

/-- The innermost error is over more values than the node has outputs. -/
def surplus : InferenceError → Bool
  | tooManyOutputs _ _ _ => true
  | inside _ inner => inner.surplus
  | _ => false

theorem surplus_foldr_inside (labels : List Label) (error : InferenceError) :
    (labels.foldr inside error).surplus = error.surplus := by
  induction labels with
  | nil => rfl
  | cons label labels ih => exact ih

/-- Such an error is one over too many values in any number of wrappers. -/
theorem surplus_iff {error : InferenceError} :
    error.surplus = true ↔ ∃ (labels : List Label) (node : Label) (produced available : Nat),
      error = labels.foldr inside (.tooManyOutputs node produced available) := by
  constructor
  · intro h
    induction error with
    | tooManyOutputs node produced available => exact ⟨[], node, produced, available, rfl⟩
    | inside label inner ih =>
      obtain ⟨labels, node, produced, available, rfl⟩ := ih h
      exact ⟨label :: labels, node, produced, available, rfl⟩
    | _ => cases h
  · rintro ⟨labels, node, produced, available, rfl⟩
    exact surplus_foldr_inside labels _

end InferenceError

/-! ### Graphs whose plain nodes have outputs -/

/-- Every plain node of the graph, and of the graphs that it holds, has an output. -/
def Graph.Productive (g : Graph) : Prop :=
  ∀ h, g.Holds h → ∀ n ∈ h.nodes, n.inner?.isNone → n.outputs ≠ []

instance (g : Graph) : Decidable g.Productive :=
  decidable_of_iff (∀ n ∈ g.allNodes, n.inner?.isNone → n.outputs ≠ []) Graph.forall_holds_iff.symm

theorem Graph.Productive.inner {g inner : Graph} {n : Node} (h : g.Productive) (hn : n ∈ g.nodes)
    (hb : n.body = .fused inner) : inner.Productive :=
  fun k hk => h k (.inside hn hb hk)

/-! ### Nodes under the built-in book -/

/-- A node makes at most as many values as it has outputs. -/
theorem Node.length_make_le {options : Options} {depth : Nat} {n : Node}
    {given made : List ValueInfo} (hout : n.inner?.isNone → n.outputs ≠ [])
    (h : (n.body.make ⟨.builtin, options⟩ depth n.label n.outputs.length given).outcome
      = .ok made) : made.length ≤ n.outputs.length := by
  cases hb : n.body with
  | plain attrs =>
    rw [hb] at h
    obtain ⟨rule, hrule, hmade⟩ := Walk.applyRule_ok_iff.1 h
    have hlength := RuleBook.length_builtin hrule _ _ _ hmade
    have hpos := List.length_pos_iff.2 (hout (by simp [Node.inner?, hb]))
    split at hlength
    · exact Nat.le_of_eq hlength
    · omega
  | fused inner =>
    rw [hb] at h
    obtain ⟨seeds, t, -, -, hcount, hr⟩ := Body.make_fused_ok_iff.1 h
    exact Nat.le_of_eq ((Table.length_of_readAll hr).trans hcount)

/-- A walk does not fail over too many values. -/
theorem Call.FailsAt.surplus_eq_false {options : Options} {c : Call} {site : Site}
    {labels : List Label} {last : InferenceError}
    (h : FailsAt ⟨.builtin, options⟩ c site labels last) (hp : c.graph.Productive) :
    last.surplus = false := by
  induction h with
  | count => rfl
  | @node c done rest n t error hat hv hl =>
    obtain ⟨given, -, hm | ⟨made, hm, hlt, -⟩⟩ := Node.visit_failed hv
    · obtain rfl | ⟨cause, rfl⟩ | ⟨declared, rfl⟩ :=
        Body.make_failed hm (InferenceError.bare_of_label hl) <;> rfl
    · have hle := Node.length_make_le (hp _ (.self _) n hat.mem) hm
      omega
  | inside hbelow _ ih =>
    obtain ⟨hat, hb, -, -⟩ := hbelow
    exact ih (hp.inner hat.mem hb)

/-- PRODUCED: a rule of the built-in book that succeeds describes all outputs of its node if it takes
    one value apart, and the first output otherwise. So over a graph whose plain nodes have outputs
    no run under that book reports that a node made too many values, at any depth. -/
theorem Graph.infer_productive :
    (∀ op rule, RuleBook.builtin.get? op = some rule →
      ∀ (given : List ValueInfo) (site : CallSite) made, rule given site = .ok made →
        made.length = if op ∈ RuleBook.spreading then site.outputCount else 1) ∧
    ∀ (options : Options) (g : Graph) (inputs : List RuntimeInput), g.Productive →
      ∀ error, (g.infer ⟨.builtin, options⟩ inputs).outcome = .error (.failed error) →
        ∀ (labels : List Label) (node : Label) (produced available : Nat),
          error ≠ labels.foldr .inside (.tooManyOutputs node produced available) := by
  refine ⟨fun op rule hrule given site => RuleBook.length_builtin hrule given site, ?_⟩
  intro options g inputs hp error h labels node produced available he
  have hsurplus : error.surplus = true := InferenceError.surplus_iff.2 ⟨_, _, _, _, he⟩
  obtain ⟨site, labels', last, hf, rfl⟩ := infer_failed_iff.1 h
  rw [InferenceError.surplus_foldr_inside] at hsurplus
  have hnot : last.surplus = false := by
    rcases Run.failsAt_iff.1 hf with ⟨index, kind, -, -, -, rfl⟩ | ⟨given, -, hwalk⟩
    · rfl
    · exact hwalk.surplus_eq_false hp
  rw [hnot] at hsurplus
  cases hsurplus

/-- A split into more chunks than the node has outputs. -/
def miscountGraph : Graph :=
  (Graph.empty.withInput "x" ⟨0⟩)
    |>.withNode "prim::ConstantChunk" [⟨0⟩]
      (.plain ((Keyed.empty.set "chunks" (.int 3)).set "dim" (.int 0))) [⟨1⟩, ⟨2⟩]
    |>.addOutput ⟨1⟩

theorem Graph.infer_productive_miscountGraph :
    (∃ rule made, RuleBook.builtin.get? "prim::ConstantChunk" = some rule ∧
      rule [.tensor [5, 3] (some .float)] ⟨"prim::ConstantChunk",
        (Keyed.empty.set "chunks" (.int 2)).set "dim" (.int 0), 2, true⟩ = .ok made ∧
      made.length = 2) ∧
    (layered "glow::FusionGroup" "f" miscountGraph).Productive ∧
    ∃ error, ((layered "glow::FusionGroup" "f" miscountGraph).infer ⟨.builtin, .default⟩
        [.tensor [5, 3] .float]).outcome = .error (.failed error) ∧
      ∀ (labels : List Label) (node : Label) (produced available : Nat),
        error ≠ labels.foldr .inside (.tooManyOutputs node produced available) := by
  have hp : (layered "glow::FusionGroup" "f" miscountGraph).Productive := by decide
  refine ⟨⟨Rule.Kind.constantChunk.shapeFn, _, rfl, rfl, ?_⟩, hp, _, rfl, ?_⟩
  · exact Graph.infer_productive.1 "prim::ConstantChunk" Rule.Kind.constantChunk.shapeFn rfl
      [.tensor [5, 3] (some .float)] ⟨"prim::ConstantChunk",
        (Keyed.empty.set "chunks" (.int 2)).set "dim" (.int 0), 2, true⟩ _ rfl
  · exact Graph.infer_productive.2 .default _ [.tensor [5, 3] .float] hp _ rfl

/-- A plain node without outputs does make too many. -/
example :
    (((Graph.empty.withInput "x" ⟨0⟩).withNode "aten::relu" [⟨0⟩] (.plain Keyed.empty) []).infer
        ⟨.builtin, .default⟩ [.tensor [2] .float]).outcome.map (·.outputs)
      = .error (.failed (.tooManyOutputs ⟨"aten::relu", none⟩ 1 0)) := rfl

end ShapeFlow
