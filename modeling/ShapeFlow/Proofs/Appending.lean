import ShapeFlow.Proofs.Renaming
import ShapeFlow.Proofs.Run

/-! Graphs that grow. The builder appends: a graph that is built further keeps its inputs, its nodes
    and the wires that it asks for, and the nodes that are new make new wires. A walk over the longer
    graph so begins with all that a walk over the shorter one does. Where this fails both fail, and
    where it finishes the visits that follow leave the old wires as they are. -/

namespace ShapeFlow

namespace Graph

/-- The graphs that come of a graph by appending to it. A node can be named while it is new. -/
inductive Appended (g : Graph) : Graph → Prop where
  | refl : Appended g g
  | addValue {g' g'' : Graph} {w : Wire} (h : Appended g g') (name : Option String)
      (hg : g'.addValue name = .ok (g'', w)) : Appended g g''
  | addOutput {g' : Graph} (h : Appended g g') (w : Wire) : Appended g (g'.addOutput w)
  | addOp {g' g'' : Graph} {made : List Wire} (h : Appended g g') (op : String)
      (inputs : List Wire) (attrs : Attributes) (count : Nat)
      (hg : g'.addOp op inputs attrs count = .ok (g'', made)) : Appended g g''
  | addFused {g' g'' : Graph} {made : List Wire} (h : Appended g g') (op : String)
      (inputs : List Wire) (inner : Graph) (count : Nat)
      (hg : g'.addFused op inputs inner count = .ok (g'', made)) : Appended g g''
  | nameLast {g' g'' : Graph} (h : Appended g g') (hnew : g.nodes.length < g'.nodes.length)
      {name : String} (hn : g'.nameLast? name = some g'') : Appended g g''

/-- The second graph has `more` nodes at its end, and these make wires that the first one lacks. -/
structure Extends (g g' : Graph) (more : List Node) : Prop where
  inputs : g'.inputs = g.inputs
  nodes : g'.nodes = g.nodes ++ more
  fresh : ∀ w ∈ outputsOf more, g.valueCount ≤ w.index
  outputs : g.outputs <+: g'.outputs
  valueCount : g.valueCount ≤ g'.valueCount

/-! ### Appending extends -/

namespace Extends

variable {g g' : Graph} {more : List Node}

theorem withValue (h : g.Extends g' more) (name : Option String) :
    g.Extends (g'.withValue name) more where
  inputs := h.inputs
  nodes := h.nodes
  fresh := h.fresh
  outputs := h.outputs
  valueCount := by
    rw [valueCount_withValue]
    exact Nat.le_succ_of_le h.valueCount

theorem addOutput (h : g.Extends g' more) (w : Wire) : g.Extends (g'.addOutput w) more where
  inputs := h.inputs
  nodes := h.nodes
  fresh := h.fresh
  outputs := h.outputs.trans (List.prefix_append _ _)
  valueCount := h.valueCount

theorem addNode (h : g.Extends g' more) {g'' : Graph} {op : String} {inputs made : List Wire}
    {body : Body} {count : Nat} (hg : g'.addNode op inputs body count = .ok (g'', made)) :
    g.Extends g'' (more ++ [⟨op, none, inputs, made, body⟩]) := by
  obtain ⟨⟨-, rfl⟩, rfl⟩ := addNode_ok_iff.1 hg
  refine ⟨h.inputs, ?_, ?_, h.outputs, ?_⟩
  · rw [withNode, h.nodes, List.append_assoc]
  · intro w hw
    rw [outputsOf_append, List.mem_append] at hw
    rcases hw with hw | hw
    · exact h.fresh w hw
    · -- a new node takes numbers from the value count of the longer graph on
      rw [outputsOf_cons, outputsOf, List.flatMap_nil, List.append_nil] at hw
      obtain ⟨n, hn, rfl⟩ := List.mem_map.1 hw
      exact Nat.le_trans h.valueCount (List.mem_range'_1.1 hn).1
  · rw [valueCount_withNode]
    exact Nat.le_add_right_of_le h.valueCount

/-- The node named last is a new one, if there is a new one. -/
theorem nameLast (h : g.Extends g' more) (hnew : g.nodes.length < g'.nodes.length)
    {name : String} {g'' : Graph} (hn : g'.nameLast? name = some g'') :
    ∃ more', g.Extends g'' more' := by
  obtain ⟨front, last, hg', rfl⟩ := nameLast?_eq_some hn
  rcases List.eq_nil_or_concat more with rfl | ⟨new, node, rfl⟩
  · rw [h.nodes, List.append_nil] at hnew
    exact absurd hnew (Nat.lt_irrefl _)
  have hsplit : front ++ [last] = (g.nodes ++ new) ++ [node] := by
    rw [← hg', h.nodes, List.concat_eq_append, List.append_assoc]
  obtain ⟨rfl, hlast⟩ := List.append_inj' hsplit rfl
  obtain rfl := List.head_eq_of_cons_eq hlast
  refine ⟨new ++ [{ last with name := some name }], h.inputs, ?_, ?_, h.outputs, h.valueCount⟩
  · exact List.append_assoc _ _ _
  · have hfresh := h.fresh
    rw [List.concat_eq_append, outputsOf_append] at hfresh
    rw [outputsOf_append]
    exact hfresh

end Extends

theorem Appended.exists_extends {g g' : Graph} (h : g.Appended g') : ∃ more, g.Extends g' more := by
  induction h with
  | refl =>
    exact ⟨[], rfl, (List.append_nil _).symm, fun w hw => absurd hw List.not_mem_nil,
      List.prefix_refl _, Nat.le_refl _⟩
  | addValue _ name hg ih =>
    obtain ⟨-, rfl⟩ := addValue_ok_iff.1 hg
    exact ih.imp fun _ h => h.withValue name
  | addOutput _ w ih => exact ih.imp fun _ h => h.addOutput w
  | addOp _ op inputs attrs count hg ih =>
    obtain ⟨_, h⟩ := ih
    exact ⟨_, h.addNode hg⟩
  | addFused _ op inputs inner count hg ih =>
    obtain ⟨_, h⟩ := ih
    exact ⟨_, h.addNode hg⟩
  | nameLast _ hnew hn ih =>
    obtain ⟨_, h⟩ := ih
    exact h.nameLast hnew hn

/-! ### Walks over longer graphs -/

namespace Extends

variable {g g' : Graph} {more : List Node} (h : g.Extends g' more)
include h

/-- A walk over the longer graph is one over the shorter graph, from a larger table, and then visits
    what is new. -/
theorem exists_walk (setup : Setup) (depth : Nat) (given : List ValueInfo) :
    ∃ front : Traced Table, g'.walk setup depth given = front >>= walkNodes setup depth more ∧
      Matches Stop.Alike (Table.Follows (fun _ => True) id) (g.walk setup depth given).outcome
        front.outcome := by
  refine ⟨Walk.start g'.valueCount g.inputs given >>= walkNodes setup depth g.nodes, ?_, ?_⟩
  · rw [Graph.walk_eq_walkNodes, h.inputs, h.nodes, bind_assoc]
    refine bind_congr fun t => ?_
    exact walkNodes_append setup depth g.nodes more t
  · rw [Graph.walk_eq_walkNodes]
    exact Traced.matches_bind (matches_start g.valueCount g'.valueCount g.inputs given)
      fun t t' ht => matches_walkNodes setup depth depth g.nodes ht

variable {setup : Setup} {depth : Nat} {given : List ValueInfo}

/-- What is appended cannot mend an error, nor come before it. -/
theorem walk_failed {error : InferenceError}
    (hw : (g.walk setup depth given).outcome = .error (.failed error)) :
    (g'.walk setup depth given).outcome = .error (.failed error) := by
  obtain ⟨front, hfront, hm⟩ := h.exists_walk setup depth given
  rw [hfront, Traced.bind_error_iff]
  exact .inl (hm.failed_of_left hw)

/-- What is appended leaves the wires of the shorter graph as they are, and forgets nothing. -/
theorem get?_of_walk {t t' : Table} (hw : (g.walk setup depth given).outcome = .ok t)
    (hw' : (g'.walk setup depth given).outcome = .ok t') :
    (∀ w, w.index < g.valueCount → t'.get? w = t.get? w) ∧ t.Within t' := by
  obtain ⟨front, hfront, hm⟩ := h.exists_walk setup depth given
  rw [hfront, Traced.bind_ok_iff] at hw'
  obtain ⟨t₁, ht₁, hmore⟩ := hw'
  obtain ⟨t₂, ht₂, hfollows⟩ := hm.of_left hw
  obtain rfl : t₂ = t₁ := Except.ok.inj (ht₂.symm.trans ht₁)
  have hsame : ∀ w, t₂.get? w = t.get? w := fun w => hfollows w trivial
  constructor
  · intro w hw
    have hnew : w ∉ outputsOf more := fun hm => absurd hw (Nat.not_lt.2 (h.fresh w hm))
    rw [get?_walkNodes hmore hnew, hsame]
  · intro w info hw
    exact within_of_walkNodes hmore w info ((hsame w).trans hw)

end Extends

end Graph

/-! ### Runs on longer graphs -/

/-- APPENDED: whatever is appended to a graph, a run that failed fails with the same error, and runs
    that both succeed know the same of the wires that were there and first hand out what they did. -/
theorem Graph.infer_appended (setup : Setup) {g g' : Graph} (h : g.Appended g')
    (inputs : List RuntimeInput) :
    (∀ error, (g.infer setup inputs).outcome = .error (.failed error) →
      (g'.infer setup inputs).outcome = .error (.failed error)) ∧
    ∀ r r', (g.infer setup inputs).outcome = .ok r → (g'.infer setup inputs).outcome = .ok r' →
      (∀ w, w.index < g.valueCount → r'.get? w = r.get? w) ∧ r.outputs <+: r'.outputs := by
  obtain ⟨more, hext⟩ := h.exists_extends
  constructor
  · intro error he
    rw [Graph.infer_error_iff] at he ⊢
    rcases he with hinfos | ⟨given, hinfos, hwalk | ⟨t, fault, -, -, hfault⟩⟩
    · exact .inl hinfos
    · exact .inr ⟨given, hinfos, .inl (hext.walk_failed hwalk)⟩
    · cases hfault
  · intro r r' hr hr'
    obtain ⟨given, hinfos, hwalk, hasked, -⟩ := Graph.infer_ok_iff.1 hr
    obtain ⟨given', hinfos', hwalk', hasked', -⟩ := Graph.infer_ok_iff.1 hr'
    obtain rfl : given = given' := Except.ok.inj (hinfos.symm.trans hinfos')
    obtain ⟨hget, hwithin⟩ := hext.get?_of_walk hwalk hwalk'
    exact ⟨hget, Table.prefix_of_readAll hext.outputs (hwithin.readAll hasked) hasked'⟩

/-! ### One more node -/

/-- The graph with a value that nothing makes, a node that reads the wire `w`, and what this makes. -/
def Graph.prolonged (g : Graph) (w : Wire) : Graph :=
  let made : Wire := ⟨g.valueCount + 1⟩
  ((g.withValue none).withNode "aten::relu" [w] (.plain Keyed.empty) [made]).addOutput made

theorem appended_prolonged (op : String) (w : Wire) :
    (singleGraph op).Appended ((singleGraph op).prolonged w) :=
  .addOutput (.addOp (.addValue .refl none rfl) "aten::relu" [w] Keyed.empty 1 rfl) _

/-- The node that is appended first reads a wire that is never filled, and then one that is. -/
theorem Graph.infer_appended_prolonged :
    (∃ error, ((singleGraph "my::op").infer ⟨.builtin, .default⟩ [.tensor [2] .float]).outcome
        = .error (.failed error) ∧
      (((singleGraph "my::op").prolonged ⟨9⟩).infer ⟨.builtin, .default⟩
        [.tensor [2] .float]).outcome = .error (.failed error)) ∧
    ∃ r r', ((singleGraph "aten::tanh").infer ⟨.builtin, .default⟩ [.tensor [2] .float]).outcome
        = .ok r ∧
      (((singleGraph "aten::tanh").prolonged ⟨1⟩).infer ⟨.builtin, .default⟩
        [.tensor [2] .float]).outcome = .ok r' ∧
      r'.get? ⟨1⟩ = r.get? ⟨1⟩ ∧ r.outputs <+: r'.outputs ∧ r'.outputs.length = 2 := by
  constructor
  · refine ⟨.unknownOperator ⟨"my::op", none⟩, rfl, ?_⟩
    exact (Graph.infer_appended _ (appended_prolonged "my::op" ⟨9⟩) _).1 _ rfl
  · have h := (Graph.infer_appended ⟨.builtin, .default⟩
      (appended_prolonged "aten::tanh" ⟨1⟩) [.tensor [2] .float]).2 _ _ rfl rfl
    exact ⟨_, _, rfl, rfl, h.1 ⟨1⟩ (by decide), h.2, rfl⟩

end ShapeFlow
