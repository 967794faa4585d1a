import ShapeFlow.Proofs.Descent

/-! Which wires a walk fills. A fused node fills all its outputs, and a plain one the first of them,
    as many as its rule returned values; beside these only the inputs are ever filled. How many
    values the rule returned can be told from the finished table, since a wire that was read keeps
    its value to the end. -/

namespace ShapeFlow

namespace Node

/-- The values that the rule of a plain node returns for what a table knows. -/
def returned? (setup : Setup) (t : Table) (n : Node) (attrs : Attributes) :
    Option (List ValueInfo) :=
  match t.readAll n.inputs, setup.book.get? n.op with
  | .ok given, some rule =>
    (rule given ⟨n.op, attrs, n.outputs.length, setup.options.endOffset⟩).toOption
  | _, _ => none

theorem returned?_eq_some_iff {setup : Setup} {t : Table} {n : Node} {attrs : Attributes}
    {made : List ValueInfo} : n.returned? setup t attrs = some made ↔
      ∃ given rule, t.readAll n.inputs = .ok given ∧ setup.book.get? n.op = some rule ∧
        rule given ⟨n.op, attrs, n.outputs.length, setup.options.endOffset⟩ = .ok made := by
  rw [returned?]
  cases t.readAll n.inputs with
  | error fault => simp
  | ok given =>
    cases setup.book.get? n.op with
    | none => simp
    | some rule =>
      simp only [Except.ok.injEq, Option.some.injEq, exists_and_left, exists_eq_left']
      cases rule given ⟨n.op, attrs, n.outputs.length, setup.options.endOffset⟩ <;>
        simp [Except.toOption]

/-- The outputs that a node describes: all of a fused one, and of a plain one the first, one for each
    value that its rule returns. -/
def described (setup : Setup) (t : Table) (n : Node) : List Wire :=
  match n.body with
  | .fused _ => n.outputs
  | .plain attrs => n.outputs.take ((n.returned? setup t attrs).getD []).length

theorem described_sublist (setup : Setup) (t : Table) (n : Node) :
    (n.described setup t).Sublist n.outputs := by
  rw [described]
  split
  · exact List.Sublist.refl _
  · exact List.take_sublist _ _

/-- A visit that made values has described as many outputs, judged by any later table. -/
theorem described_eq {setup : Setup} {depth : Nat} {n : Node} {t : Table}
    {given made : List ValueInfo} (hr : t.readAll n.inputs = .ok given)
    (hm : (n.body.make setup depth n.label n.outputs.length given).outcome = .ok made) :
    n.described setup t = n.outputs.take made.length := by
  cases hb : n.body with
  | plain attrs =>
    rw [hb] at hm
    obtain ⟨rule, hbook, hrule⟩ := Walk.applyRule_ok_iff.1 hm
    have hop : setup.book.get? n.op = some rule := hbook
    have hret : rule given ⟨n.op, attrs, n.outputs.length, setup.options.endOffset⟩ = .ok made :=
      hrule
    have hreturned := returned?_eq_some_iff.2 ⟨given, rule, hr, hop, hret⟩
    simp [described, hb, hreturned]
  | fused inner =>
    rw [hb] at hm
    obtain ⟨seeds, t', -, -, hl, ho⟩ := Body.make_fused_ok_iff.1 hm
    simp [described, hb, Table.length_of_readAll ho, hl]

/-- A finished visit fills what its node describes. -/
theorem isSome_visit_iff {setup : Setup} {depth : Nat} {n : Node} {t t' later : Table}
    (h : (n.visit setup depth t).outcome = .ok t') (hl : t'.Within later) (w : Wire) :
    (t'.get? w).isSome ↔ (t.get? w).isSome ∨ w ∈ n.described setup later := by
  obtain ⟨given, made, hr, hm, -, hs⟩ := Node.visit_ok_iff.1 h
  have hlater := ((within_of_visit h).trans hl).readAll hr
  rw [described_eq hlater hm, Table.isSome_insertAll_zip hs]

end Node

/-- Finished visits fill what their nodes describe. -/
theorem isSome_walkNodes_iff {setup : Setup} {depth : Nat} {nodes : List Node}
    {t t' later : Table} (h : (walkNodes setup depth nodes t).outcome = .ok t')
    (hl : t'.Within later) (w : Wire) :
    (t'.get? w).isSome ↔ (t.get? w).isSome ∨ ∃ n ∈ nodes, w ∈ n.described setup later := by
  induction nodes generalizing t with
  | nil => obtain rfl := Except.ok.inj h; simp
  | cons n nodes ih =>
    obtain ⟨t₁, hv, hw⟩ := walkNodes_cons_ok_iff.1 h
    rw [ih hw, Node.isSome_visit_iff hv ((within_of_walkNodes hw).trans hl)]
    simp [or_assoc]

/-- The rule of a plain node that was visited returned values, no more than the node has outputs. -/
theorem returned?_of_walkNodes {setup : Setup} {depth : Nat} {nodes : List Node}
    {t t' : Table} (h : (walkNodes setup depth nodes t).outcome = .ok t') {n : Node}
    (hn : n ∈ nodes) {attrs : Attributes} (hb : n.body = .plain attrs) :
    ∃ made, n.returned? setup t' attrs = some made ∧ made.length ≤ n.outputs.length := by
  induction nodes generalizing t with
  | nil => cases hn
  | cons m nodes ih =>
    obtain ⟨t₁, hv, hw⟩ := walkNodes_cons_ok_iff.1 h
    rcases List.mem_cons.1 hn with rfl | hn
    · obtain ⟨given, made, hr, hm, hl, -⟩ := Node.visit_ok_iff.1 hv
      rw [hb] at hm
      obtain ⟨rule, hbook, hrule⟩ := Walk.applyRule_ok_iff.1 hm
      have hop : setup.book.get? n.op = some rule := hbook
      have hret : rule given ⟨n.op, attrs, n.outputs.length, setup.options.endOffset⟩
          = .ok made := hrule
      have hlater := ((within_of_visit hv).trans (within_of_walkNodes hw)).readAll hr
      exact ⟨made, Node.returned?_eq_some_iff.2 ⟨given, rule, hlater, hop, hret⟩, hl⟩
    · exact ih hw hn

namespace Call

/-- Where a walk comes to a node, the inputs are filled and what the nodes behind it describe. -/
theorem At.isSome_iff {setup : Setup} {c : Call} {done rest : List Node} {n : Node}
    {t later : Table} (h : c.At setup done n rest t) (hl : t.Within later) (w : Wire) :
    (t.get? w).isSome ↔ w ∈ c.graph.inputs ∨ ∃ m ∈ done, w ∈ m.described setup later := by
  obtain ⟨t₀, hs, hw⟩ := h.exists_start
  rw [isSome_walkNodes_iff hw hl, isSome_start hs]

/-- Where a walk comes to a node, nothing is filled but what was made before. -/
theorem At.mem_of_isSome {setup : Setup} {c : Call} {done rest : List Node} {n : Node} {t : Table}
    (h : c.At setup done n rest t) {w : Wire} (hw : (t.get? w).isSome) :
    w ∈ c.graph.inputs ++ outputsOf done := by
  rw [h.isSome_iff (Table.Within.refl t)] at hw
  rcases hw with hw | ⟨m, hm, hw⟩
  · exact List.mem_append_left _ hw
  · exact List.mem_append_right _
      (mem_outputsOf.2 ⟨m, hm, (m.described_sublist setup t).subset hw⟩)

/-- The wires filled in a finished walk. -/
def filled (setup : Setup) (g : Graph) (t : Table) : List Wire :=
  g.inputs ++ g.nodes.flatMap (Node.described setup t)

/-- A finished walk has filled the inputs and what its nodes describe, and nothing else. -/
theorem isSome_walk_iff {setup : Setup} {c : Call} {t : Table}
    (h : (c.walk setup).outcome = .ok t) (w : Wire) :
    (t.get? w).isSome ↔ w ∈ filled setup c.graph t := by
  obtain ⟨t₀, hs, hw⟩ := Graph.walk_ok_iff.1 h
  rw [isSome_walkNodes_iff hw (Table.Within.refl t), isSome_start hs, filled, List.mem_append,
    List.mem_flatMap]

end Call

end ShapeFlow
