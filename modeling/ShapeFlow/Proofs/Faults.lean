import ShapeFlow.Proofs.Outcome
import ShapeFlow.Proofs.Run
import ShapeFlow.Proofs.Filling

/-! Where the faults of a run come from. In a built graph there are four ways: a node reads a wire that
    is still empty, a graph is asked for one, a node holds a graph without the mark of fused ones, or
    a rule itself gives up. Making a wire twice is not among them. -/

namespace ShapeFlow

namespace Walk

/-- Seeding a graph only faults where the mark is missing. -/
theorem seeds_faulted {setup : Setup} {node : Label} {given : List ValueInfo} {fault : Fault}
    (h : (seeds setup node given).outcome = .error (.faulted fault)) :
    setup.options.marks node.op = false ∧ fault = .notFusion node.op := by
  rw [seeds] at h
  split at h
  · next hm =>
    exfalso
    split at h
    · cases h
    · cases h
    · next fault' hs =>
      -- the reading of a value as a tensor refuses or succeeds, so nothing can be given up
      exact FaultsOnly.mapM (P := fun _ => False) (fun x _ => x.faultsOnly_asTensor.map _) fault' hs
  · next hm =>
    cases h
    exact ⟨by simpa using hm, rfl⟩

/-- A rule application that faults has a rule that gives up. -/
theorem applyRule_faulted {setup : Setup} {node : Label} {attrs : Attributes} {count : Nat}
    {given : List ValueInfo} {fault : Fault}
    (h : (applyRule setup node attrs count given).outcome = .error (.faulted fault)) :
    ∃ rule, setup.book.get? node.op = some rule ∧
      rule given ⟨node.op, attrs, count, setup.options.endOffset⟩ = giveUp fault := by
  rw [applyRule] at h
  split at h
  · cases h
  · next rule hb =>
    refine ⟨rule, hb, ?_⟩
    split at h
    · cases h
    · cases h
    · next fault' hr => cases h; exact hr

end Walk

namespace Call

/-- How the walk of a call can break a promise. -/
inductive Faults (setup : Setup) (c : Call) : Fault → Prop where
  | readEarly {done rest : List Node} {n : Node} {t : Table} {w : Wire}
      (hat : c.At setup done n rest t) (hw : w ∈ n.inputs) (hn : t.get? w = none) :
      Faults setup c (.readTooEarly w.index)
  | askEarly {done rest : List Node} {n : Node} {t t' : Table} {inner : Graph}
      {given seeds : List ValueInfo} {w : Wire} (hat : c.At setup done n rest t)
      (hb : n.body = .fused inner) (hr : t.readAll n.inputs = .ok given)
      (hs : (Walk.seeds setup n.label given).outcome = .ok seeds)
      (ht : (Call.walk setup ⟨c.depth + 1, inner, seeds⟩).outcome = .ok t')
      (hw : w ∈ inner.outputs) (hn : t'.get? w = none) : Faults setup c (.readTooEarly w.index)
  | unmarked {n : Node} {inner : Graph} (hn : n ∈ c.graph.nodes) (hb : n.body = .fused inner)
      (hm : setup.options.marks n.op = false) : Faults setup c (.notFusion n.op)
  | gaveUp {n : Node} {attrs : Attributes} {rule : ShapeFn} {given : List ValueInfo} {fault : Fault}
      (hn : n ∈ c.graph.nodes) (hb : n.body = .plain attrs)
      (hbook : setup.book.get? n.op = some rule)
      (hr : rule given ⟨n.op, attrs, n.outputs.length, setup.options.endOffset⟩ = giveUp fault) :
      Faults setup c fault

/-- A walk over distinct wires breaks a promise in one of these ways. -/
theorem Stops.faults {setup : Setup} {c : Call} (hd : c.graph.Distinct) {fault : Fault}
    (h : c.Stops setup (.faulted fault)) : c.Faults setup fault := by
  cases h with
  | start h =>
    rw [Walk.start] at h
    split at h
    · obtain ⟨t, ht⟩ := c.exists_insertAll_inputs hd
      rw [ht] at h
      cases h
    · cases h
  | read hat h =>
    obtain ⟨w, hw, hn, rfl⟩ := Table.exists_of_readAll_error h
    exact .readEarly hat hw hn
  | rule hat hb _ h =>
    obtain ⟨rule, hbook, hr⟩ := Walk.applyRule_faulted h
    exact .gaveUp hat.mem hb hbook hr
  | seeds hat hb _ h =>
    obtain ⟨hm, rfl⟩ := Walk.seeds_faulted h
    exact .unmarked hat.mem hb hm
  | collect hat hb hr hs ht h =>
    rw [Walk.collect] at h
    split at h
    · obtain ⟨f, hf, he⟩ := Traced.ofFault_error_iff.1 h
      obtain ⟨w, hw, hn, rfl⟩ := Table.exists_of_readAll_error hf
      cases he
      exact .askEarly hat hb hr hs ht hw hn
    · cases h
  | @store done rest n t given made _ hat _ _ h =>
    rw [Walk.store] at h
    split at h
    · cases h
    · obtain ⟨t', ht'⟩ := hat.exists_insertAll hd made
      rw [ht'] at h
      cases h

/-- A walk over a built graph that faults does so in a call that it enters. -/
theorem exists_faults {setup : Setup} {c : Call} (hb : c.graph.Built) {fault : Fault}
    (h : (c.walk setup).outcome = .error (.faulted fault)) :
    ∃ labels c', c.Enters setup labels c' ∧ c'.Faults setup fault := by
  obtain ⟨labels, c', stop', he, hs, hstop⟩ := exists_stops h
  obtain rfl := Stop.foldr_inside_eq_faulted_iff.1 hstop.symm
  exact ⟨labels, c', he, hs.faults (hb.of_holds he.holds).distinct⟩

end Call

/-- A run over a built graph that faults does so in a call that it enters, or over a wire that the
    graph is asked for. -/
theorem Graph.exists_of_infer_faulted {setup : Setup} {g : Graph} (hb : g.Built)
    {inputs : List RuntimeInput} {fault : Fault}
    (h : (g.infer setup inputs).outcome = .error (.faulted fault)) :
    ∃ given, (Run.infos 0 inputs).outcome = .ok given ∧
      ((∃ labels c, Call.Enters setup ⟨0, g, given⟩ labels c ∧ c.Faults setup fault) ∨
        ∃ t w, (g.walk setup 0 given).outcome = .ok t ∧ w ∈ g.outputs ∧ t.get? w = none ∧
          fault = .readTooEarly w.index) := by
  rcases Graph.infer_error_iff.1 h with h | ⟨given, hg, h | ⟨t, f, ht, hf, he⟩⟩
  · exact absurd h (Run.infos_ne_faulted 0 inputs fault)
  · exact ⟨given, hg, .inl (Call.exists_faults (c := ⟨0, g, given⟩) hb h)⟩
  · obtain ⟨w, hw, hn, rfl⟩ := Table.exists_of_readAll_error hf
    cases he
    exact ⟨given, hg, .inr ⟨t, w, ht, hw, hn, rfl⟩⟩

end ShapeFlow
