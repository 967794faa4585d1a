import ShapeFlow.Proofs.Faults
import ShapeFlow.Proofs.Rule.Builtin

/-! Runs that cannot get stuck. A graph is well formed if at every level its nodes read what comes
    before them, it is asked for what is made, fused nodes have the mark, and nobody turns to what a
    built-in rule leaves undescribed. With the built-in book a run over such a graph finds every
    wire that it reads filled, so it has a result or an error as long as no rule leaves the words. -/

namespace ShapeFlow

/-- What is asked of one level of a graph. -/
structure Graph.LevelFormed (options : Options) (g : Graph) : Prop where
  reads : ∀ i (hi : i < g.nodes.length), ∀ w ∈ g.nodes[i].inputs,
    w ∈ g.inputs ++ outputsOf (g.nodes.take i)
  asks : ∀ w ∈ g.outputs, w ∈ g.made
  marked : ∀ n ∈ g.nodes, n.inner?.isSome → options.marks n.op
  firstOnly : ∀ n ∈ g.nodes, n.inner?.isNone → n.op ∉ RuleBook.spreading →
    ∀ w ∈ n.outputs.drop 1, w ∉ g.outputs ∧ ∀ m ∈ g.nodes, w ∉ m.inputs

/-- All levels of the graph are formed as asked. -/
def Graph.WellFormed (options : Options) (g : Graph) : Prop :=
  ∀ h, g.Holds h → h.LevelFormed options

/-- A graph is well formed if it is formed as asked and holds well-formed graphs. -/
theorem Graph.LevelFormed.wellFormed {options : Options} {g : Graph}
    (hf : g.LevelFormed options)
    (hi : ∀ n ∈ g.nodes, ∀ inner, n.body = .fused inner → inner.WellFormed options) :
    g.WellFormed options := by
  intro h hh
  cases hh with
  | self => exact hf
  | inside hn hb hh => exact hi _ hn _ hb h hh

/-! ### What is read is described -/

section

variable {options : Options} {g : Graph}

/-- A node that was visited has described all outputs that anybody turns to. -/
theorem Graph.LevelFormed.mem_described (hf : g.LevelFormed options) {depth : Nat}
    {nodes : List Node} {t t' : Table}
    (h : (walkNodes ⟨.builtin, options⟩ depth nodes t).outcome = .ok t') {n : Node}
    (hn : n ∈ nodes) (hg : n ∈ g.nodes) {w : Wire} (hw : w ∈ n.outputs)
    (hu : w ∈ g.outputs ∨ ∃ m ∈ g.nodes, w ∈ m.inputs) :
    w ∈ n.described ⟨.builtin, options⟩ t' := by
  rw [Node.described]
  split
  · exact hw
  · next attrs hb =>
    obtain ⟨made, hr, -⟩ := returned?_of_walkNodes h hn hb
    obtain ⟨given, rule, -, hbook, hm⟩ := Node.returned?_eq_some_iff.1 hr
    have hlen := RuleBook.length_builtin hbook _ _ made hm
    rw [hr, Option.getD_some, hlen]
    by_cases hop : n.op ∈ RuleBook.spreading
    · rw [if_pos hop, List.take_length]
      exact hw
    · rw [if_neg hop]
      rw [← List.take_append_drop 1 n.outputs, List.mem_append] at hw
      refine hw.resolve_right fun hd => ?_
      obtain ⟨ho, hi⟩ := hf.firstOnly n hg (by simp [Node.inner?, hb]) hop w hd
      rcases hu with hu | ⟨m, hm, hwm⟩
      · exact ho hu
      · exact hi m hm hwm

/-- What a node reads is filled where a walk comes to it. -/
theorem Graph.LevelFormed.isSome_of_mem_inputs {c : Call} (hf : c.graph.LevelFormed options)
    {done rest : List Node} {n : Node} {t : Table}
    (hat : c.At ⟨.builtin, options⟩ done n rest t) {w : Wire} (hw : w ∈ n.inputs) :
    (t.get? w).isSome := by
  obtain ⟨t₀, -, hwalk⟩ := hat.exists_start
  rw [hat.isSome_iff (Table.Within.refl t)]
  have hreads := hf.reads done.length (by simp [hat.split])
  simp only [hat.split, List.getElem_append_right, List.take_left, Nat.sub_self,
    List.getElem_cons_zero, Nat.le_refl] at hreads
  rcases List.mem_append.1 (hreads w hw) with hi | ho
  · exact .inl hi
  · obtain ⟨m, hm, hwm⟩ := mem_outputsOf.1 ho
    have hmg : m ∈ c.graph.nodes := hat.split ▸ List.mem_append_left _ hm
    exact .inr ⟨m, hm, hf.mem_described hwalk hm hmg hwm (.inr ⟨n, hat.mem, hw⟩)⟩

/-- What a graph is asked for is filled at the end of its walk. -/
theorem Graph.LevelFormed.isSome_of_mem_outputs {c : Call} (hf : c.graph.LevelFormed options)
    {t : Table} (h : (c.walk ⟨.builtin, options⟩).outcome = .ok t) {w : Wire}
    (hw : w ∈ c.graph.outputs) : (t.get? w).isSome := by
  obtain ⟨t₀, -, hwalk⟩ := Graph.walk_ok_iff.1 h
  rw [Call.isSome_walk_iff h, Call.filled, List.mem_append, List.mem_flatMap]
  rcases List.mem_append.1 (hf.asks w hw) with hi | ho
  · exact .inl hi
  · obtain ⟨m, hm, hwm⟩ := mem_outputsOf.1 ho
    exact .inr ⟨m, hm, hf.mem_described hwalk hm hm hwm (.inl hw)⟩

/-! ### What is left to fault -/

/-- A call over well-formed graphs only breaks a promise where a rule leaves the words. -/
theorem Call.Faults.isOverflow {c : Call} (hw : c.graph.WellFormed options) {fault : Fault}
    (h : c.Faults ⟨.builtin, options⟩ fault) : fault.IsOverflow := by
  have hf := hw _ (.self _)
  cases h with
  | readEarly hat hin hn =>
    have hs := hf.isSome_of_mem_inputs hat hin
    rw [hn] at hs
    cases hs
  | askEarly hat hb hr hseeds ht hout hn =>
    have hs := (hw _ (.inside hat.mem hb (.self _))).isSome_of_mem_outputs ht hout
    rw [hn] at hs
    cases hs
  | unmarked hn hb hm =>
    rw [hf.marked _ hn (by simp [Node.inner?, hb])] at hm
    cases hm
  | gaveUp hn hb hbook hr => exact RuleBook.faultsOnly_builtin hbook _ _ fault hr

end

theorem Graph.Holds.trans {g h k : Graph} (hg : g.Holds h) (hh : h.Holds k) : g.Holds k := by
  induction hg with
  | self => exact hh
  | inside hn hb _ ih => exact .inside hn hb (ih hh)

/-- A run over a well-formed graph only faults where a rule leaves the words. -/
theorem Graph.isOverflow_of_infer_faulted {options : Options} {g : Graph} (hg : g.Built)
    (hw : g.WellFormed options) {inputs : List RuntimeInput} {fault : Fault}
    (h : (g.infer ⟨.builtin, options⟩ inputs).outcome = .error (.faulted fault)) :
    fault.IsOverflow := by
  obtain ⟨given, -, ⟨labels, c, he, hf⟩ | ⟨t, w, ht, hout, hn, -⟩⟩ :=
    Graph.exists_of_infer_faulted hg h
  · exact hf.isOverflow fun k hk => hw k (he.holds.trans hk)
  · have hs := (hw g (.self g)).isSome_of_mem_outputs (c := ⟨0, g, given⟩) ht hout
    rw [hn] at hs
    cases hs

/-- PROGRESS: a run with the built-in book over a well-formed graph, in which no rule leaves the words,
    ends with a result or an error. -/
theorem Graph.infer_wellFormed {options : Options} {g : Graph} (hg : g.Built)
    (hw : g.WellFormed options) (inputs : List RuntimeInput)
    (ho : ∀ op, (g.infer ⟨.builtin, options⟩ inputs).outcome ≠
      .error (.faulted (.overflow op))) :
    (∃ r, (g.infer ⟨.builtin, options⟩ inputs).outcome = .ok r) ∨
      ∃ error, (g.infer ⟨.builtin, options⟩ inputs).outcome = .error (.failed error) := by
  cases h : (g.infer ⟨.builtin, options⟩ inputs).outcome with
  | ok r => exact .inl ⟨r, rfl⟩
  | error stop =>
    cases stop with
    | failed error => exact .inr ⟨error, rfl⟩
    | faulted fault =>
      obtain ⟨op, rfl⟩ := Graph.isOverflow_of_infer_faulted hg hw h
      exact absurd h (ho op)

/-! ### A run over two levels -/

/-- A fused graph, and a split into as many chunks as are read. -/
def splitGraph : Graph :=
  (Graph.empty.withInput "x" ⟨0⟩)
    |>.withNode "glow::FusionGroup" [⟨0⟩] (.fused (singleGraph "aten::relu")) [⟨1⟩]
    |>.withNode "prim::ConstantChunk" [⟨1⟩]
      (.plain ((Keyed.empty.set "chunks" (.int 2)).set "dim" (.int 0))) [⟨2⟩, ⟨3⟩]
    |>.addOutput ⟨2⟩ |>.addOutput ⟨3⟩

theorem built_splitGraph : splitGraph.Built :=
  .addOutput (.addOutput (.addOp (.addFused (.addInput .empty "x" rfl) (built_singleGraph _)
    "glow::FusionGroup" [⟨0⟩] 1 rfl) "prim::ConstantChunk" [⟨1⟩] _ 2 rfl) ⟨2⟩) ⟨3⟩

theorem wellFormed_splitGraph : splitGraph.WellFormed .default := by
  refine Graph.LevelFormed.wellFormed ⟨by decide, by decide, by decide, by decide⟩ ?_
  intro n hn inner hb
  rcases List.mem_cons.1 hn with rfl | hn
  · cases hb
    refine Graph.LevelFormed.wellFormed ⟨by decide, by decide, by decide, by decide⟩ ?_
    intro n hn inner hb
    rw [List.mem_singleton.1 hn] at hb
    cases hb
  · rw [List.mem_singleton.1 hn] at hb
    cases hb

theorem Graph.infer_wellFormed_splitGraph :
    (∃ r, (splitGraph.infer ⟨.builtin, .default⟩ [.tensor [5, 3] .float]).outcome = .ok r) ∨
      ∃ error, (splitGraph.infer ⟨.builtin, .default⟩ [.tensor [5, 3] .float]).outcome
        = .error (.failed error) :=
  Graph.infer_wellFormed built_splitGraph wellFormed_splitGraph [.tensor [5, 3] .float]
    fun _ h => by cases h

end ShapeFlow
