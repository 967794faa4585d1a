import ShapeFlow.Proofs.Faults

/-! Every wire is filled at most once, and it is known which. No walk over a built graph fills a wire
    twice or one that the table has no slot for, so the fault of a wire made twice can only come from
    a rule that gives up with it. A run that succeeds has filled the inputs and what the nodes
    describe, each once, and lists them in order of number. -/

namespace ShapeFlow

namespace Call

/-- What a graph fills is a choice of what it makes, so no wire comes twice. -/
theorem nodup_filled (setup : Setup) {g : Graph} (hd : g.Distinct) (t : Table) :
    (filled setup g t).Nodup := by
  have key : ∀ nodes : List Node,
      (nodes.flatMap (Node.described setup t)).Sublist (outputsOf nodes) := by
    intro nodes
    induction nodes with
    | nil => exact .slnil
    | cons n nodes ih => exact (n.described_sublist setup t).append ih
  exact hd.nodup.sublist ((key g.nodes).append_left g.inputs)

/-- A finished walk leaves the table with one slot for each value. -/
theorem size_walk {setup : Setup} {c : Call} (hd : c.graph.Distinct) {t : Table}
    (h : (c.walk setup).outcome = .ok t) : t.slots.size = c.graph.valueCount := by
  obtain ⟨t₀, hs, hw⟩ := Graph.walk_ok_iff.1 h
  have h₀ := size_start hs fun w hw => hd.lt_valueCount w (List.mem_append_left _ hw)
  rw [← h₀]
  exact size_walkNodes hw fun w hw => h₀ ▸ hd.lt_valueCount w (List.mem_append_right _ hw)

end Call

/-- SINGLE ASSIGNMENT: in all graphs that a run enters, a wire that is filled is empty just before and
    below the number of values, so making a wire twice is a fault of rules alone. A run that
    succeeds knows exactly its inputs and what each node describes, and lists each once and in order,
    as there are wires enough for its table. -/
theorem Graph.single_assignment {g : Graph} (hg : g.Built) (setup : Setup)
    (inputs : List RuntimeInput) :
    (∀ given labels c t w info, (Run.infos 0 inputs).outcome = .ok given →
      Call.Enters setup ⟨0, g, given⟩ labels c → c.Fills setup t w info →
        t.get? w = none ∧ w.index < c.graph.valueCount ∧
          t.slots.size = c.graph.valueCount) ∧
    (∀ index, (g.infer setup inputs).outcome = .error (.faulted (.producedTwice index)) →
      ∃ op rule given site, setup.book.get? op = some rule ∧
        rule given site = giveUp (.producedTwice index)) ∧
    (∀ r, (g.infer setup inputs).outcome = .ok r →
      r.table.slots.size = g.valueCount ∧
      (∀ n ∈ g.nodes, ∀ attrs, n.body = .plain attrs →
        ∃ made, n.returned? setup r.table attrs = some made ∧
          made.length ≤ n.outputs.length) ∧
      (∀ w, (r.get? w).isSome ↔
        w ∈ g.inputs ∨ ∃ n ∈ g.nodes, w ∈ n.described setup r.table) ∧
      (g.inputs ++ g.nodes.flatMap (Node.described setup r.table)).Nodup ∧
      r.size = (g.inputs ++ g.nodes.flatMap (Node.described setup r.table)).length ∧
      r.table.entries = .ok r.entries ∧
      (∀ w info, (w, info) ∈ r.entries ↔ r.get? w = some info) ∧
      r.entries.Pairwise fun p q => p.1.index < q.1.index) := by
  refine ⟨?_, ?_, ?_⟩
  · intro given labels c t w info _ he hf
    exact hf.empty_and_lt (hg.of_holds he.holds).distinct
  · intro index h
    obtain ⟨given, -, ⟨labels, c, -, hf⟩ | ⟨t, w, -, -, -, he⟩⟩ := Graph.exists_of_infer_faulted hg h
    · cases hf with
      | gaveUp _ _ hbook hr => exact ⟨_, _, _, _, hbook, hr⟩
    · cases he
  · intro r h
    obtain ⟨given, -, hw, -, -⟩ := Graph.infer_ok_iff.1 h
    obtain ⟨t₀, -, hn⟩ := Graph.walk_ok_iff.1 hw
    have hsome := Call.isSome_walk_iff (c := ⟨0, g, given⟩) hw
    have hnodup := Call.nodup_filled setup hg.distinct r.table
    have hslots := Call.size_walk (c := ⟨0, g, given⟩) hg.distinct hw
    have hroom : r.table.slots.size ≤ Wire.limit := hslots ▸ hg.valueCount_le
    refine ⟨hslots, fun n hm attrs hb => returned?_of_walkNodes hn hm hb, fun w => ?_, hnodup,
      Table.size_eq_length hnodup hsome, Table.entries_of_size_le hroom,
      fun w info => Table.mem_known_iff, Table.pairwise_known r.table⟩
    rw [Report.get?, hsome, Call.filled, List.mem_append, List.mem_flatMap]

/-! ### A run with an output that stays empty -/

/-- One operator, squashing what comes in. -/
def squashGraph : Graph :=
  ((Graph.empty.withInput "x" ⟨0⟩).withNode "aten::relu" [⟨0⟩] (.plain Keyed.empty)
    [⟨1⟩]).addOutput ⟨1⟩

theorem built_squashGraph : squashGraph.Built :=
  .addOutput (.addOp (.addInput .empty "x" rfl) "aten::relu" [⟨0⟩] Keyed.empty 1 rfl) ⟨1⟩

/-- An operator whose second output no rule describes, and a fused one after it. -/
def stagedGraph : Graph :=
  (Graph.empty.withInput "x" ⟨0⟩)
    |>.withNode "aten::tanh" [⟨0⟩] (.plain Keyed.empty) [⟨1⟩, ⟨2⟩]
    |>.withNode "glow::FusionGroup" [⟨1⟩] (.fused squashGraph) [⟨3⟩]
    |>.addOutput ⟨3⟩

theorem built_stagedGraph : stagedGraph.Built :=
  .addOutput (.addFused (.addOp (.addInput .empty "x" rfl) "aten::tanh" [⟨0⟩] Keyed.empty 2 rfl)
    built_squashGraph "glow::FusionGroup" [⟨1⟩] 1 rfl) ⟨3⟩

theorem Graph.single_assignment_stagedGraph :
    stagedGraph.Built ∧ ∃ r,
      (stagedGraph.infer ⟨.builtin, .default⟩ [.tensor [2, 3] .float]).outcome = .ok r ∧
        r.table.slots.size = 4 ∧ r.size = 3 ∧ (r.get? ⟨3⟩).isSome ∧ ¬ (r.get? ⟨2⟩).isSome ∧
        r.table.entries = .ok r.entries := by
  have h := (Graph.single_assignment built_stagedGraph ⟨.builtin, .default⟩
    [.tensor [2, 3] .float]).2.2 _ rfl
  refine ⟨built_stagedGraph, _, rfl, h.1, h.2.2.2.2.1, ?_, ?_, h.2.2.2.2.2.1⟩
  · exact (h.2.2.1 ⟨3⟩).2 (.inr ⟨_, .tail _ (.head _), .head _⟩)
  · rw [h.2.2.1 ⟨2⟩]
    decide

end ShapeFlow

