import ShapeFlow.Proofs.Descent
import ShapeFlow.Proofs.Run

/-! What a run takes from its setup. A walk *evaluates* a node on the values that the node reads, in
    its own graph or in one that it enters; and the setup is only consulted there, for the rule of a
    plain node or for the seeds of a fused one. So two setups that do the same at every evaluation of
    one walk walk alike, to the last record: up to the first difference the other walk comes to the
    same nodes with the same tables, and there is no first difference. -/

namespace ShapeFlow

/-! ### Operators in use -/

namespace Graph

variable {g : Graph} {op : String}

/-- A plain node has the operator, in the graph or in one that it holds. -/
def Uses (g : Graph) (op : String) : Prop :=
  ∃ h, g.Holds h ∧ ∃ n ∈ h.nodes, n.inner?.isNone ∧ n.op = op

theorem uses_iff : g.Uses op ↔ ∃ n ∈ g.allNodes, n.inner?.isNone ∧ n.op = op := by
  constructor
  · rintro ⟨h, hh, n, hn, huse⟩
    exact ⟨n, g.mem_allNodes.2 ⟨h, hh, hn⟩, huse⟩
  · rintro ⟨n, hn, huse⟩
    obtain ⟨h, hh, hn⟩ := g.mem_allNodes.1 hn
    exact ⟨h, hh, n, hn, huse⟩

instance : Decidable (g.Uses op) := decidable_of_iff _ uses_iff.symm

end Graph

/-! ### Evaluations -/

/-- Two computations go on alike if they do so from what the first step comes to. -/
theorem Traced.bind_congr_of_ok {α β : Type} {x : Traced α} {f f' : α → Traced β}
    (h : ∀ a, x.outcome = .ok a → f a = f' a) : x >>= f = x >>= f' := by
  rcases x with ⟨es, _ | a⟩
  · rfl
  · simp only [Bind.bind, Traced.bind, h a rfl]

/-- The setups do the same at a node with the values that it reads. -/
def Setup.AgreeAt (setup setup' : Setup) (n : Node) (given : List ValueInfo) : Prop :=
  match n.body with
  | .plain attrs => Walk.applyRule setup n.label attrs n.outputs.length given
      = Walk.applyRule setup' n.label attrs n.outputs.length given
  | .fused _ => Walk.seeds setup n.label given = Walk.seeds setup' n.label given

namespace Call

/-- A call that the walk enters comes to the node and reads these values there. -/
def Evaluates (setup : Setup) (c : Call) (n : Node) (given : List ValueInfo) : Prop :=
  ∃ labels c' done rest t, c.Enters setup labels c' ∧ c'.At setup done n rest t ∧
    t.readAll n.inputs = .ok given

variable {setup setup' : Setup} {c : Call}

/-- The evaluations of a fused graph are evaluations of the walk that enters it. -/
theorem At.evaluates_inner {done rest : List Node} {n m : Node} {t : Table} {inner : Graph}
    {given seeds given' : List ValueInfo} (hat : c.At setup done n rest t)
    (hb : n.body = .fused inner) (hr : t.readAll n.inputs = .ok given)
    (hs : (Walk.seeds setup n.label given).outcome = .ok seeds)
    (h : Evaluates setup ⟨c.depth + 1, inner, seeds⟩ m given') : c.Evaluates setup m given' := by
  obtain ⟨labels, c', done', rest', t', he, hat', hr'⟩ := h
  exact ⟨n.label :: labels, c', done', rest', t', .inside hat hb hr hs he, hat', hr'⟩

/-- A node that is evaluated is in the graph of the call or in one held there. -/
theorem Evaluates.exists_holds {n : Node} {given : List ValueInfo}
    (h : c.Evaluates setup n given) : ∃ g, c.graph.Holds g ∧ n ∈ g.nodes := by
  obtain ⟨labels, c', done, rest, t, he, hat, -⟩ := h
  exact ⟨c'.graph, he.holds, hat.mem⟩

end Call

/-! ### Setups that agree wherever they are consulted -/

section

variable {setup setup' : Setup} {depth : Nat}

/-- A visit is the same under setups that agree at the node and walk its graph alike. -/
theorem Node.visit_congr {n : Node} {t : Table}
    (hagree : ∀ given, t.readAll n.inputs = .ok given → setup.AgreeAt setup' n given)
    (hinner : ∀ inner given seeds, n.body = .fused inner → t.readAll n.inputs = .ok given →
      (Walk.seeds setup n.label given).outcome = .ok seeds →
        inner.walk setup (depth + 1) seeds = inner.walk setup' (depth + 1) seeds) :
    n.visit setup depth t = n.visit setup' depth t := by
  rw [Node.visit_eq, Node.visit_eq]
  refine Traced.bind_congr_of_ok fun given hg => ?_
  rw [Traced.ofFault_ok_iff] at hg
  have hat := hagree given hg
  rw [Setup.AgreeAt] at hat
  have hmake : n.body.make setup depth n.label n.outputs.length given
      = n.body.make setup' depth n.label n.outputs.length given := by
    cases hb : n.body with
    | plain attrs =>
      rw [hb] at hat
      exact hat
    | fused inner =>
      rw [hb] at hat
      rw [Body.make, Body.make, ← hat]
      refine Traced.bind_congr_of_ok fun seeds hs => ?_
      rw [hinner inner given seeds hb hg hs]
  rw [hmake]

/-- Nodes are visited alike if each of them is where the first setup comes to it. -/
theorem walkNodes_congr {nodes : List Node} {t : Table}
    (h : ∀ done n rest t', nodes = done ++ n :: rest →
      (walkNodes setup depth done t).outcome = .ok t' →
        n.visit setup depth t' = n.visit setup' depth t') :
    walkNodes setup depth nodes t = walkNodes setup' depth nodes t := by
  induction nodes generalizing t with
  | nil => rfl
  | cons n nodes ih =>
    rw [walkNodes, walkNodes, ← h [] n nodes t rfl rfl]
    refine Traced.bind_congr_of_ok fun t₁ hv => ih fun done m rest t' hsplit hd => ?_
    exact h (n :: done) m rest t' (by rw [hsplit, List.cons_append])
      (walkNodes_cons_ok_iff.2 ⟨t₁, hv, hd⟩)

end

/-- A walk is the same under setups that agree at all that it evaluates. -/
theorem Call.walk_congr {setup setup' : Setup} {c : Call}
    (h : ∀ n given, c.Evaluates setup n given → setup.AgreeAt setup' n given) :
    c.walk setup = c.walk setup' := by
  rw [walk, walk, Graph.walk_eq_walkNodes, Graph.walk_eq_walkNodes]
  refine Traced.bind_congr_of_ok fun t₀ hs => walkNodes_congr fun done n rest t hsplit hd => ?_
  have hat : c.At setup done n rest t := ⟨hsplit, Traced.bind_ok_iff.2 ⟨t₀, hs, hd⟩⟩
  refine Node.visit_congr (fun given hg => h n given ⟨[], c, done, rest, t, .self c, hat, hg⟩) ?_
  intro inner given seeds hb hg hseeds
  have hlt : sizeOf inner < sizeOf c.graph := Graph.sizeOf_inner_lt hat.mem hb
  exact Call.walk_congr (c := ⟨c.depth + 1, inner, seeds⟩) fun m given' hm =>
    h m given' (hat.evaluates_inner hb hg hseeds hm)
termination_by sizeOf c.graph

namespace Run

/-- The run takes its inputs, and its walk evaluates the node on these values. -/
def Evaluates (setup : Setup) (g : Graph) (inputs : List RuntimeInput) (n : Node)
    (given : List ValueInfo) : Prop :=
  ∃ taken, (infos 0 inputs).outcome = .ok taken ∧
    Call.Evaluates setup ⟨0, g, taken⟩ n given

variable {setup setup' : Setup} {g : Graph} {inputs : List RuntimeInput}

theorem Evaluates.exists_holds {n : Node} {given : List ValueInfo}
    (h : Evaluates setup g inputs n given) : ∃ k, g.Holds k ∧ n ∈ k.nodes := by
  obtain ⟨taken, -, h⟩ := h
  exact h.exists_holds

/-- All of a run but the dump is the same under setups that agree at all that it evaluates. -/
theorem report_congr
    (h : ∀ n given, Evaluates setup g inputs n given → setup.AgreeAt setup' n given) :
    report setup g inputs = report setup' g inputs := by
  rw [report, report]
  refine Traced.bind_congr_of_ok fun taken ht => ?_
  have hwalk := Call.walk_congr (c := ⟨0, g, taken⟩) fun n given he => h n given ⟨taken, ht, he⟩
  rw [Call.walk, Call.walk] at hwalk
  rw [hwalk]

end Run

end ShapeFlow
