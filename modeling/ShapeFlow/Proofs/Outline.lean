import ShapeFlow.Proofs.Failure
import ShapeFlow.Proofs.Lockstep
import ShapeFlow.Proofs.Rule.Untyped

/-! What shapes come from. The outline of a graph leaves out its names, the numbers of floats and the
    element types of tensor constants, at every depth. Graphs with one outline have the same nodes
    at the same places, and their rules do the same to values that are alike but for element types.
    So their walks stay in step: they end with values that are alike but for element types, or fail
    at the same place with the same kind of error, or break the same promise. -/

namespace ShapeFlow

/-! ### Outlines -/

mutual

/-- A body with the outlines of its constants, or of the graph that it holds. -/
def Body.outline : Body → Body
  | .plain attrs => .plain attrs.outline
  | .fused inner => .fused inner.outline
termination_by structural body => body

/-- A node without its name, its body outlined. -/
def Node.outline : Node → Node
  | ⟨op, _, inputs, outputs, body⟩ => ⟨op, none, inputs, outputs, body.outline⟩
termination_by structural node => node

/-- Nodes outlined one by one. -/
def outlineNodes : List Node → List Node
  | [] => []
  | node :: rest => node.outline :: outlineNodes rest
termination_by structural nodes => nodes

/-- A graph without the names of its values, its nodes outlined. -/
def Graph.outline : Graph → Graph
  | ⟨names, nodes, inputs, outputs⟩ =>
    ⟨names.map fun _ => none, outlineNodes nodes, inputs, outputs⟩
termination_by structural graph => graph

end

/-- A run-time input without the element type of a tensor. -/
def RuntimeInput.outline : RuntimeInput → RuntimeInput
  | .tensor dims _ => .tensor dims .float
  | input => input

theorem outlineNodes_eq_map (nodes : List Node) : outlineNodes nodes = nodes.map Node.outline := by
  induction nodes with
  | nil => rfl
  | cons n nodes ih => rw [outlineNodes, ih, List.map_cons]

/-- Nodes with one outline have the same operator and wires, and bodies with one outline. -/
theorem Node.of_outline_eq {n n' : Node} (h : n.outline = n'.outline) :
    n.op = n'.op ∧ n.inputs = n'.inputs ∧ n.outputs = n'.outputs ∧
      n.body.outline = n'.body.outline := by
  obtain ⟨op, name, inputs, outputs, body⟩ := n
  obtain ⟨op', name', inputs', outputs', body'⟩ := n'
  rw [outline, outline, Node.mk.injEq] at h
  exact ⟨h.1, h.2.2.1, h.2.2.2.1, h.2.2.2.2⟩

/-- Graphs with one outline have the same wires asked for and given, and nodes with one outline each. -/
theorem Graph.of_outline_eq {g g' : Graph} (h : g.outline = g'.outline) :
    g.nodes.map Node.outline = g'.nodes.map Node.outline ∧ g.inputs = g'.inputs ∧
      g.outputs = g'.outputs := by
  obtain ⟨names, nodes, inputs, outputs⟩ := g
  obtain ⟨names', nodes', inputs', outputs'⟩ := g'
  rw [outline, outline, Graph.mk.injEq, outlineNodes_eq_map, outlineNodes_eq_map] at h
  exact h.2

/-- A body with the outline of a fused one is fused over a graph with the same outline. -/
theorem Body.exists_of_outline_fused {body : Body} {inner : Graph}
    (h : (Body.fused inner).outline = body.outline) :
    ∃ inner', body = .fused inner' ∧ inner.outline = inner'.outline := by
  cases body with
  | plain attrs => cases h
  | fused inner' => exact ⟨inner', rfl, Body.fused.inj h⟩

/-- A body with the outline of a plain one is plain with constants of the same outline. -/
theorem Body.exists_of_outline_plain {body : Body} {attrs : Attributes}
    (h : (Body.plain attrs).outline = body.outline) :
    ∃ attrs', body = .plain attrs' ∧ attrs.outline = attrs'.outline := by
  cases body with
  | plain attrs' => exact ⟨attrs', rfl, Body.plain.inj h⟩
  | fused inner => cases h

/-! ### Alike but for element types -/

/-- The values are alike but for element types. -/
def ValueInfo.Alike (x x' : ValueInfo) : Prop := x.untyped = x'.untyped

/-- What is read off the value without its type is the same of alike values. -/
theorem ValueInfo.Alike.congr {α : Type} {x x' : ValueInfo} (h : x.Alike x') (f : ValueInfo → α) :
    f x.untyped = f x'.untyped := congrArg f h

/-- Errors of one kind, both wrappers or neither. -/
def InferenceError.SameKind (error error' : InferenceError) : Prop :=
  error.kind = error'.kind ∧ (error.Bare ↔ error'.Bare)

namespace InferenceError.SameKind

/-- Errors of one kind that nodes report themselves. -/
theorem of_label {error error' : InferenceError} {node node' : Label}
    (hk : error.kind = error'.kind) (h : error.label? = some node)
    (h' : error'.label? = some node') : error.SameKind error' :=
  ⟨hk, iff_of_true (bare_of_label h) (bare_of_label h')⟩

theorem inputCount (expected actual : Nat) :
    (InferenceError.inputCount expected actual).SameKind (.inputCount expected actual) :=
  ⟨rfl, Iff.rfl⟩

theorem inside {node node' : Label} {error error' : InferenceError} (h : error.SameKind error') :
    (InferenceError.inside node error).SameKind (.inside node' error') :=
  ⟨h.1, iff_of_false (fun hb => hb node error rfl) fun hb => hb node' error' rfl⟩

end InferenceError.SameKind

theorem ValueInfo.forall₂_alike_iff {xs xs' : List ValueInfo} :
    List.Forall₂ Alike xs xs' ↔ xs.map untyped = xs'.map untyped := by
  rw [← List.forall₂_eq_eq_eq, List.forall₂_map_left_iff, List.forall₂_map_right_iff]
  rfl

/-- Outcomes that are the same but for element types are made of alike values, or halt alike. -/
theorem Outcome.matches_of_untyped {x y : Outcome (List ValueInfo)} (h : untyped x = untyped y) :
    Matches Eq (List.Forall₂ ValueInfo.Alike) x y := by
  cases x with
  | error halt =>
    cases y with
    | error halt' => exact .error (Except.error.inj h)
    | ok ys => cases h
  | ok xs =>
    cases y with
    | error halt => cases h
    | ok ys => exact .ok (ValueInfo.forall₂_alike_iff.2 (Except.ok.inj h))

/-- Alike values seed a fused graph with alike values, or are refused for the same cause. -/
theorem ValueInfo.matches_mapM_tensor {given given' : List ValueInfo}
    (h : List.Forall₂ Alike given given') :
    Matches Eq (List.Forall₂ Alike)
      (given.mapM fun x => x.asTensor.map fun dims => tensor dims x.elem)
      (given'.mapM fun x => x.asTensor.map fun dims => tensor dims x.elem) := by
  induction h with
  | nil => exact .ok .nil
  | @cons x x' xs xs' hx _ ih =>
    rw [List.mapM_cons, List.mapM_cons]
    have htensor : x.asTensor = x'.asTensor := hx.congr asTensor
    rw [htensor]
    cases x'.asTensor with
    | error halt => exact .error rfl
    | ok dims => exact ih.bind fun ys ys' hys => .ok (.cons rfl hys)

/-! ### Nodes and graphs with one outline -/

section

variable {options : Options}

/-- A rule makes alike values of alike values at nodes with one operator. -/
theorem matches_applyRule {node node' : Label} (hop : node.op = node'.op)
    {attrs attrs' : Attributes} (ha : attrs.outline = attrs'.outline) (count : Nat)
    {given given' : List ValueInfo} (h : List.Forall₂ ValueInfo.Alike given given') :
    Matches (Stop.Similar InferenceError.SameKind) (List.Forall₂ ValueInfo.Alike)
      (Walk.applyRule ⟨.builtin, options⟩ node attrs count given).outcome
      (Walk.applyRule ⟨.builtin, options⟩ node' attrs' count given').outcome := by
  refine inStep_applyRule hop (.of_label rfl rfl rfl) (fun _ => .of_label rfl rfl rfl) ?_
  intro rule hrule
  refine Outcome.matches_of_untyped ?_
  rw [← RuleBook.untyped_builtin hrule, ← RuleBook.untyped_builtin hrule given',
    CallSite.outline, CallSite.outline, ValueInfo.forall₂_alike_iff.1 h, ha]

/-- Alike values seed the graphs of nodes with one operator alike. -/
theorem matches_seeds {setup : Setup} {node node' : Label} (hop : node.op = node'.op)
    {given given' : List ValueInfo} (h : List.Forall₂ ValueInfo.Alike given given') :
    Matches (Stop.Similar InferenceError.SameKind) (List.Forall₂ ValueInfo.Alike)
      (Walk.seeds setup node given).outcome (Walk.seeds setup node' given').outcome :=
  inStep_seeds hop (fun _ => .of_label rfl rfl rfl) (ValueInfo.matches_mapM_tensor h)

mutual

/-- Bodies with one outline make alike values of alike values. -/
theorem Body.matches_make (depth : Nat) {node node' : Label} (hop : node.op = node'.op)
    (count : Nat) : ∀ body body' : Body, body.outline = body'.outline →
      ∀ {given given' : List ValueInfo}, List.Forall₂ ValueInfo.Alike given given' →
        Matches (Stop.Similar InferenceError.SameKind) (List.Forall₂ ValueInfo.Alike)
          (body.make ⟨.builtin, options⟩ depth node count given).outcome
          (body'.make ⟨.builtin, options⟩ depth node' count given').outcome
  | .plain attrs, body', h, _, _, hg => by
    obtain ⟨attrs', rfl, ha⟩ := Body.exists_of_outline_plain h
    exact matches_applyRule hop ha count hg
  | .fused ⟨names, nodes, inputs, outputs⟩, body', h, _, _, hg => by
    obtain ⟨inner', rfl, hinner⟩ := Body.exists_of_outline_fused h
    obtain ⟨hnodes, hin, hout⟩ := Graph.of_outline_eq hinner
    refine Traced.matches_bind (matches_seeds hop hg) fun seeds seeds' hs => ?_
    rw [Traced.outcome_emit_bind, Traced.outcome_emit_bind]
    have hwalk := inStep_walk (R := fun _ => ValueInfo.Alike) InferenceError.SameKind.inputCount hin
      (forall₂_inStep_of_outline (depth + 1) nodes inner'.nodes hnodes)
      (.of_forall₂ hs fun _ _ _ _ h => h)
    refine Traced.matches_bind (Traced.similar_inside (fun _ _ h => h.inside) hwalk) ?_
    intro t t' ht
    rw [Traced.outcome_emit_bind, Traced.outcome_emit_bind, ← hout]
    exact (inStep_collect (.of_label rfl rfl rfl) ht).imp_ok fun _ _ _ _ h =>
      h.imp fun _ _ ⟨_, _, hx⟩ => hx

/-- Nodes with one outline are in step on alike values. -/
theorem Node.inStep_of_outline (depth : Nat) : ∀ n n' : Node, n.outline = n'.outline →
    n.InStep ⟨.builtin, options⟩ depth InferenceError.SameKind (fun _ => ValueInfo.Alike) n'
  | ⟨op, name, inputs, outputs, body⟩, n', h =>
    have ⟨hop, hin, hout, hbody⟩ := Node.of_outline_eq h
    { inputs := hin
      outputs := hout
      store := fun _ _ => .of_label rfl rfl rfl
      make := fun given given' hg => by
        rw [← hout]
        refine (Body.matches_make depth hop _ body n'.body hbody ?_).imp_ok fun _ _ _ _ h =>
          .of_forall₂ h fun _ _ _ _ h => h
        exact hg.imp fun _ _ ⟨_, _, hx⟩ => hx }

theorem forall₂_inStep_of_outline (depth : Nat) : ∀ nodes nodes' : List Node,
    nodes.map Node.outline = nodes'.map Node.outline →
      List.Forall₂ (Node.InStep ⟨.builtin, options⟩ depth InferenceError.SameKind
        fun _ => ValueInfo.Alike) nodes nodes'
  | [], [], _ => .nil
  | n :: nodes, n' :: nodes', h =>
    have h := List.cons.inj h
    .cons (Node.inStep_of_outline depth n n' h.1) (forall₂_inStep_of_outline depth nodes nodes' h.2)

end

/-! ### Failures of graphs with one outline -/

/-- Two calls at one depth, of graphs with one outline, that are given alike values. -/
structure Call.Alike (c c' : Call) : Prop where
  depth : c.depth = c'.depth
  outline : c.graph.outline = c'.graph.outline
  given : List.Forall₂ ValueInfo.Alike c.given c'.given

namespace Call

variable {c c' : Call}

/-- Where one walk has come, the other comes too, with a table in step. -/
theorem At.of_alike {done rest : List Node} {n : Node} {t : Table} (hc : c.Alike c')
    (hat : c.At ⟨.builtin, options⟩ done n rest t) :
    ∃ done' n' rest' t', c'.At ⟨.builtin, options⟩ done' n' rest' t' ∧
      done.length = done'.length ∧ n.outline = n'.outline ∧
      t.InStep (fun _ => ValueInfo.Alike) t' := by
  obtain ⟨hnodes, hin, -⟩ := Graph.of_outline_eq hc.outline
  rw [hat.split, List.map_append, List.map_cons] at hnodes
  obtain ⟨done', tail, hsplit, hdone, htail⟩ := List.map_eq_append_iff.1 hnodes.symm
  obtain ⟨n', rest', rfl, hn, -⟩ := List.map_eq_cons_iff.1 htail
  -- the nodes behind are in step, and so are the tables that the walks have now
  have hbehind : List.Forall₂ (Node.InStep ⟨.builtin, options⟩ c.depth InferenceError.SameKind
      fun _ => ValueInfo.Alike) done done' := forall₂_inStep_of_outline _ done done' hdone.symm
  have haligned : Aligned (fun _ => ValueInfo.Alike) c.graph.inputs c.given c'.given :=
    .of_forall₂ hc.given fun _ _ _ _ h => h
  have hpast := Traced.matches_bind
    (inStep_start InferenceError.SameKind.inputCount c.graph.valueCount c'.graph.valueCount
      haligned) fun t t' ht => inStep_walkNodes hbehind ht
  obtain ⟨t', ht', hstep⟩ := hpast.of_left hat.past
  refine ⟨done', n', rest', t', ⟨hsplit, ?_⟩, ?_, hn.symm, hstep⟩
  · rw [← hin, ← hc.depth]
    exact ht'
  · simpa using congrArg List.length hdone.symm

/-- Where one walk fails, the other fails too, with the same kind of error. -/
theorem FailsAt.of_alike {site : Site} {labels : List Label} {last : InferenceError}
    (h : FailsAt ⟨.builtin, options⟩ c site labels last) (hc : c.Alike c') :
    ∃ labels' last', FailsAt ⟨.builtin, options⟩ c' site labels' last' ∧
      last.kind = last'.kind := by
  induction h generalizing c' with
  | count h =>
    obtain ⟨-, hin, -⟩ := Graph.of_outline_eq hc.outline
    rw [hin, hc.given.length_eq] at h
    exact ⟨[], _, .count h, rfl⟩
  | node hat hv hl =>
    obtain ⟨done', n', rest', t', hat', hlen, hn, ht⟩ := hat.of_alike hc
    obtain ⟨last', hv', hkind, hbare⟩ :=
      ((Node.inStep_of_outline _ _ n' hn).visit ht).similar_of_left hv
    rw [hc.depth] at hv'
    have hl' := Node.label_of_visit hv' (hbare.1 (InferenceError.bare_of_label hl))
    exact ⟨[], last', hlen ▸ .node hat' hv' hl', hkind⟩
  | inside hbelow _ ih =>
    obtain @⟨_, _, n, _, _, _, _, hat, hb, hr, hs⟩ := hbelow
    obtain ⟨done', n', rest', t', hat', hlen, hn, ht⟩ := hat.of_alike hc
    obtain ⟨hop, hin, -, hbody⟩ := Node.of_outline_eq hn
    obtain ⟨inner', hb', hinner⟩ := Body.exists_of_outline_fused (hb ▸ hbody)
    obtain ⟨given', hr', hgiven⟩ := (ht.readAll _).of_left hr
    have halike : List.Forall₂ ValueInfo.Alike _ given' := hgiven.imp fun _ _ ⟨_, _, hx⟩ => hx
    have hlabel : n.label.op = n'.label.op := hop
    obtain ⟨seeds', hs', hseeds⟩ := (matches_seeds hlabel halike).of_left hs
    have hbelow' := Below.intro hat' hb' (hin ▸ hr') hs'
    obtain ⟨labels', last', hf, hkind⟩ := @ih ⟨c'.depth + 1, inner', seeds'⟩
      ⟨congrArg (· + 1) hc.depth, hinner, hseeds⟩
    exact ⟨n'.label :: labels', last', hlen ▸ .inside hbelow' hf, hkind⟩

end Call

/-! ### Runs over graphs with one outline -/

/-- Inputs with one outline are of one kind, and are taken as alike values or refused together. -/
theorem RuntimeInput.of_outline_eq {input input' : RuntimeInput}
    (h : input.outline = input'.outline) :
    input.kind = input'.kind ∧ Option.Rel ValueInfo.Alike input.info? input'.info? := by
  have hkind : ∀ i : RuntimeInput, i.outline.kind = i.kind := fun i => by cases i <;> rfl
  have hinfo : ∀ i : RuntimeInput, i.outline.info?.map ValueInfo.untyped
      = i.info?.map ValueInfo.untyped := fun i => by cases i <;> rfl
  refine ⟨by rw [← hkind, h, hkind], ?_⟩
  have hsame : input.info?.map ValueInfo.untyped = input'.info?.map ValueInfo.untyped := by
    rw [← hinfo, h, hinfo]
  revert hsame
  cases input.info? with
  | none =>
    cases input'.info? with
    | none => exact fun _ => .none
    | some x' => exact nofun
  | some x =>
    cases input'.info? with
    | none => exact nofun
    | some x' => exact fun hsame => .some (Option.some.inj hsame)

theorem RuntimeInput.forall₂_of_outline_eq {inputs inputs' : List RuntimeInput}
    (h : inputs.map outline = inputs'.map outline) :
    List.Forall₂ (fun i i' => i.kind = i'.kind ∧ Option.Rel ValueInfo.Alike i.info? i'.info?) inputs
      inputs' := by
  rw [← List.forall₂_eq_eq_eq, List.forall₂_map_left_iff, List.forall₂_map_right_iff] at h
  exact h.imp fun _ _ => of_outline_eq

/-- Where one run fails, the other fails too, with the same kind of error. -/
theorem Run.FailsAt.of_outline {g g' : Graph} (hg : g.outline = g'.outline)
    {inputs inputs' : List RuntimeInput}
    (hi : inputs.map RuntimeInput.outline = inputs'.map RuntimeInput.outline) {site : Site}
    {labels : List Label} {last : InferenceError}
    (h : Run.FailsAt ⟨.builtin, options⟩ g inputs site labels last) :
    ∃ labels' last', Run.FailsAt ⟨.builtin, options⟩ g' inputs' site labels' last' ∧
      last.kind = last'.kind := by
  have hinputs := RuntimeInput.forall₂_of_outline_eq hi
  rcases Run.failsAt_iff.1 h with ⟨index, kind, hinfo, rfl, rfl, rfl⟩ | ⟨given, hgiven, h⟩
  · have hinfos := Run.matches_infos (P := Eq) (fun _ _ => rfl) hinputs 0
    obtain ⟨_, hinfo', rfl⟩ := hinfos.similar_of_left hinfo
    exact ⟨[], _, Run.failsAt_iff.2 (.inl ⟨index, kind, hinfo', rfl, rfl, rfl⟩), rfl⟩
  · have hinfos := Run.matches_infos (P := InferenceError.SameKind) (fun _ _ => ⟨rfl, Iff.rfl⟩)
      hinputs 0
    obtain ⟨given', hgiven', halike⟩ := hinfos.of_left hgiven
    have hcalls : Call.Alike ⟨0, g, given⟩ ⟨0, g', given'⟩ := ⟨rfl, hg, halike⟩
    obtain ⟨labels', last', hf, hkind⟩ := h.of_alike hcalls
    exact ⟨labels', last', .walk hgiven' hf, hkind⟩

/-- OUTLINE: what a run comes to follows from the outlines of the graph and of the inputs. Two runs
    with the same outlines succeed together, with the same sizes and the same integers of every wire,
    fail together, at one site and with one kind of error, or break the same promise. -/
theorem Graph.infer_outline (options : Options) {g g' : Graph} (hg : g.outline = g'.outline)
    {inputs inputs' : List RuntimeInput}
    (hi : inputs.map RuntimeInput.outline = inputs'.map RuntimeInput.outline) :
    (∃ r r', (g.infer ⟨.builtin, options⟩ inputs).outcome = .ok r ∧
        (g'.infer ⟨.builtin, options⟩ inputs').outcome = .ok r' ∧
        ∀ w, (r.get? w).map ValueInfo.extent = (r'.get? w).map ValueInfo.extent ∧
          (r.get? w).map ValueInfo.payload? = (r'.get? w).map ValueInfo.payload?) ∨
      (∃ site labels labels' last last',
        Run.FailsAt ⟨.builtin, options⟩ g inputs site labels last ∧
        Run.FailsAt ⟨.builtin, options⟩ g' inputs' site labels' last' ∧
        (g.infer ⟨.builtin, options⟩ inputs).outcome
          = .error (.failed (labels.foldr .inside last)) ∧
        (g'.infer ⟨.builtin, options⟩ inputs').outcome
          = .error (.failed (labels'.foldr .inside last')) ∧
        (labels.foldr InferenceError.inside last).kind
          = (labels'.foldr InferenceError.inside last').kind) ∨
      ∃ fault, (g.infer ⟨.builtin, options⟩ inputs).outcome = .error (.faulted fault) ∧
        (g'.infer ⟨.builtin, options⟩ inputs').outcome = .error (.faulted fault) := by
  obtain ⟨hnodes, hin, hout⟩ := Graph.of_outline_eq hg
  have hinfos : Matches (Stop.Similar InferenceError.SameKind)
      (Aligned (fun _ => ValueInfo.Alike) g.inputs) (Run.infos 0 inputs).outcome
      (Run.infos 0 inputs').outcome :=
    (Run.matches_infos (fun _ _ => ⟨rfl, Iff.rfl⟩) (RuntimeInput.forall₂_of_outline_eq hi)
      0).imp_ok fun _ _ _ _ h => .of_forall₂ h fun _ _ _ _ h => h
  have hsteps : List.Forall₂ (Node.InStep ⟨.builtin, options⟩ 0 InferenceError.SameKind
      fun _ => ValueInfo.Alike) g.nodes g'.nodes := forall₂_inStep_of_outline 0 _ _ hnodes
  have hrun := Run.inStep_infer InferenceError.SameKind.inputCount hinfos hin hout hsteps
  rcases hrun.cases_similar with ⟨r, r', hr, hr', ht, -⟩ | ⟨error, error', he, he', -⟩ | h
  · refine .inl ⟨r, r', hr, hr', fun w => ?_⟩
    have hat := ht w
    rw [Report.get?, Report.get?]
    generalize r.table.get? w = o, r'.table.get? w = o' at hat
    cases hat with
    | none => exact ⟨rfl, rfl⟩
    | some hx =>
      exact ⟨congrArg some (hx.congr ValueInfo.extent), congrArg some (hx.congr ValueInfo.payload?)⟩
  · obtain ⟨site, labels, last, hf, rfl⟩ := Graph.infer_failed_iff.1 he
    obtain ⟨labels', last', hf', hkind⟩ := hf.of_outline hg hi
    refine .inr (.inl ⟨site, labels, labels', last, last', hf, hf', he, ?_, ?_⟩)
    · exact Graph.infer_failed_iff.2 ⟨site, labels', last', hf', rfl⟩
    · rw [InferenceError.kind_foldr_inside, InferenceError.kind_foldr_inside, hkind]
  · exact .inr (.inr h)

end

/-! ### Two graphs with one outline -/

/-- The sum of a tensor and a tensor constant, scaled by a float. -/
def scaledGraph (name : String) (elem : ElemType) (scale : Binary64) : Graph :=
  (Graph.empty.withInput name ⟨0⟩)
    |>.withNode "prim::Constant" [] (.plain (Keyed.empty.set "value" (.tensor [3, 2] elem))) [⟨1⟩]
    |>.withNode "prim::Constant" [] (.plain (Keyed.empty.set "value" (.float scale))) [⟨2⟩]
    |>.withNode "aten::add" [⟨0⟩, ⟨1⟩, ⟨2⟩] (.plain Keyed.empty) [⟨3⟩]
    |>.addOutput ⟨3⟩

/-- Other names, another float and other types inside of a fused operator, and another type outside. -/
theorem Graph.infer_outline_scaledGraph :
    ∃ r r', ((layered "glow::FusionGroup" "f" (scaledGraph "x" .float ⟨0⟩)).infer
        ⟨.builtin, .default⟩ [.tensor [2] .float]).outcome = .ok r ∧
      ((layered "glow::FusionGroup" "g" (scaledGraph "y" .int8 ⟨1⟩)).infer
        ⟨.builtin, .default⟩ [.tensor [2] .half]).outcome = .ok r' ∧
      r.get? ⟨1⟩ = some (.tensor [3, 2] (some .float)) ∧
      r'.get? ⟨1⟩ = some (.tensor [3, 2] (some .half)) ∧
      ∀ w, (r.get? w).map ValueInfo.extent = (r'.get? w).map ValueInfo.extent ∧
        (r.get? w).map ValueInfo.payload? = (r'.get? w).map ValueInfo.payload? := by
  have hg : (layered "glow::FusionGroup" "f" (scaledGraph "x" .float ⟨0⟩)).outline
      = (layered "glow::FusionGroup" "g" (scaledGraph "y" .int8 ⟨1⟩)).outline := rfl
  have hi : [RuntimeInput.tensor [2] .float].map RuntimeInput.outline
      = [.tensor [2] .half].map RuntimeInput.outline := rfl
  rcases infer_outline .default hg hi with
    ⟨r, r', hr, hr', hsame⟩ | ⟨_, _, _, _, _, -, -, he, -⟩ | ⟨_, hf, -⟩
  · refine ⟨r, r', hr, hr', ?_, ?_, hsame⟩
    · cases hr
      rfl
    · cases hr'
      rfl
  · cases he
  · cases hf

end ShapeFlow
