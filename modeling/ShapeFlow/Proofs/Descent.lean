import ShapeFlow.Inference.Run
import ShapeFlow.Proofs.Walk

/-! The way down of a run. Walking a graph, a run comes to its nodes one by one; where it comes to a
    fused node it enters another graph, and so on down. A *call* is one graph with what its inputs
    are, and the calls that a run enters are spelled out by the labels of the fused nodes passed,
    outermost first.

    A walk that stops does so in one of the calls that it enters, at a place of that call and not
    below it, and every node passed on the way down puts its label around an error. -/

namespace ShapeFlow

/-- A graph to be walked, below how many others, and what its inputs are. -/
structure Call where
  depth : Nat
  graph : Graph
  given : List ValueInfo

namespace Call

/-- The walk of the call. -/
def walk (setup : Setup) (c : Call) : Traced Table := c.graph.walk setup c.depth c.given

/-- The walk of the call comes to the node `n` with the table `t`, the nodes `done` behind it. -/
structure At (setup : Setup) (c : Call) (done : List Node) (n : Node) (rest : List Node)
    (t : Table) : Prop where
  split : c.graph.nodes = done ++ n :: rest
  past : (Walk.start c.graph.valueCount c.graph.inputs c.given
    >>= walkNodes setup c.depth done).outcome = .ok t

/-- The walk of the first call enters the second one, past fused nodes with these labels. -/
inductive Enters (setup : Setup) : Call → List Label → Call → Prop where
  | self (c : Call) : Enters setup c [] c
  | inside {c c' : Call} {done rest : List Node} {n : Node} {t : Table} {inner : Graph}
      {given seeds : List ValueInfo} {labels : List Label} (hat : c.At setup done n rest t)
      (hb : n.body = .fused inner) (hr : t.readAll n.inputs = .ok given)
      (hs : (Walk.seeds setup n.label given).outcome = .ok seeds)
      (h : Enters setup ⟨c.depth + 1, inner, seeds⟩ labels c') :
      Enters setup c (n.label :: labels) c'

/-- The walk of the call fills a wire, the table being `t` just before. -/
inductive Fills (setup : Setup) (c : Call) : Table → Wire → ValueInfo → Prop where
  | input {before after : List (Wire × ValueInfo)} {w : Wire} {info : ValueInfo} {t : Table}
      (hl : c.given.length = c.graph.inputs.length)
      (hz : c.graph.inputs.zip c.given = before ++ (w, info) :: after)
      (ht : (Table.ofSize c.graph.valueCount).insertAll before = .ok t) : Fills setup c t w info
  | output {done rest : List Node} {n : Node} {given made : List ValueInfo}
      {before after : List (Wire × ValueInfo)} {w : Wire} {info : ValueInfo} {t₀ t : Table}
      (hat : c.At setup done n rest t₀) (hr : t₀.readAll n.inputs = .ok given)
      (hm : (n.body.make setup c.depth n.label n.outputs.length given).outcome = .ok made)
      (hl : made.length ≤ n.outputs.length)
      (hz : n.outputs.zip made = before ++ (w, info) :: after)
      (ht : t₀.insertAll before = .ok t) : Fills setup c t w info

/-- The walk of the call stops at a place of its own graph. -/
inductive Stops (setup : Setup) (c : Call) : Stop → Prop where
  | start {stop : Stop}
      (h : (Walk.start c.graph.valueCount c.graph.inputs c.given).outcome = .error stop) :
      Stops setup c stop
  | read {done rest : List Node} {n : Node} {t : Table} {fault : Fault}
      (hat : c.At setup done n rest t) (h : t.readAll n.inputs = .error fault) :
      Stops setup c (.faulted fault)
  | rule {done rest : List Node} {n : Node} {t : Table} {attrs : Attributes}
      {given : List ValueInfo} {stop : Stop} (hat : c.At setup done n rest t)
      (hb : n.body = .plain attrs) (hr : t.readAll n.inputs = .ok given)
      (h : (Walk.applyRule setup n.label attrs n.outputs.length given).outcome = .error stop) :
      Stops setup c stop
  | seeds {done rest : List Node} {n : Node} {t : Table} {inner : Graph}
      {given : List ValueInfo} {stop : Stop} (hat : c.At setup done n rest t)
      (hb : n.body = .fused inner) (hr : t.readAll n.inputs = .ok given)
      (h : (Walk.seeds setup n.label given).outcome = .error stop) : Stops setup c stop
  | collect {done rest : List Node} {n : Node} {t t' : Table} {inner : Graph}
      {given seeds : List ValueInfo} {stop : Stop} (hat : c.At setup done n rest t)
      (hb : n.body = .fused inner) (hr : t.readAll n.inputs = .ok given)
      (hs : (Walk.seeds setup n.label given).outcome = .ok seeds)
      (hw : (Call.walk setup ⟨c.depth + 1, inner, seeds⟩).outcome = .ok t')
      (h : (Walk.collect n.label inner.outputs n.outputs.length t').outcome = .error stop) :
      Stops setup c stop
  | store {done rest : List Node} {n : Node} {t : Table} {given made : List ValueInfo}
      {stop : Stop} (hat : c.At setup done n rest t) (hr : t.readAll n.inputs = .ok given)
      (hm : (n.body.make setup c.depth n.label n.outputs.length given).outcome = .ok made)
      (h : (Walk.store n.label n.outputs made t).outcome = .error stop) : Stops setup c stop

/-! ### What the calls of a run have in common with the first -/

theorem At.mem {setup : Setup} {c : Call} {done rest : List Node} {n : Node} {t : Table}
    (h : c.At setup done n rest t) : n ∈ c.graph.nodes := by
  rw [h.split]
  simp

theorem Enters.holds {setup : Setup} {c c' : Call} {labels : List Label}
    (h : c.Enters setup labels c') : c.graph.Holds c'.graph := by
  induction h with
  | self => exact .self _
  | inside hat hb _ _ _ ih => exact .inside hat.mem hb ih

theorem At.exists_start {setup : Setup} {c : Call} {done rest : List Node} {n : Node} {t : Table}
    (h : c.At setup done n rest t) :
    ∃ t₀, (Walk.start c.graph.valueCount c.graph.inputs c.given).outcome = .ok t₀ ∧
      (walkNodes setup c.depth done t₀).outcome = .ok t := Traced.bind_ok_iff.1 h.past

end Call

/-! ### Where a walk stops -/

/-- A walk over nodes that stops has finished some visits and stops in the next. -/
theorem exists_of_walkNodes_error {setup : Setup} {depth : Nat} {nodes : List Node} {t : Table}
    {stop : Stop} (h : (walkNodes setup depth nodes t).outcome = .error stop) :
    ∃ done n rest t₁, nodes = done ++ n :: rest ∧
      (walkNodes setup depth done t).outcome = .ok t₁ ∧
      (n.visit setup depth t₁).outcome = .error stop := by
  induction nodes generalizing t with
  | nil => cases h
  | cons n nodes ih =>
    rcases Traced.bind_error_iff.1 h with h | ⟨t', hv, h⟩
    · exact ⟨[], n, nodes, t, rfl, rfl, h⟩
    · obtain ⟨done, m, rest, t₁, rfl, hd, hm⟩ := ih h
      exact ⟨n :: done, m, rest, t₁, rfl, walkNodes_cons_ok_iff.2 ⟨t', hv, hd⟩, hm⟩

/-- What a node holds is smaller than the graph that the node is in. -/
theorem Graph.sizeOf_inner_lt {g inner : Graph} {n : Node} (hn : n ∈ g.nodes)
    (hb : n.body = .fused inner) : sizeOf inner < sizeOf g := by
  obtain ⟨names, nodes, inputs, outputs⟩ := g
  have hlt := List.sizeOf_lt_of_mem hn
  obtain ⟨op, name, ins, outs, body⟩ := n
  obtain rfl : body = .fused inner := hb
  simp only [Graph.mk.sizeOf_spec, Node.mk.sizeOf_spec, Body.fused.sizeOf_spec] at hlt ⊢
  omega

namespace Call

/-- A walk that stops does so at a place of a call that it enters, and the nodes on the way down put
    their labels around the reason. -/
theorem exists_stops {setup : Setup} {c : Call} {stop : Stop}
    (h : (c.walk setup).outcome = .error stop) :
    ∃ labels c' stop', c.Enters setup labels c' ∧ c'.Stops setup stop' ∧
      stop = labels.foldr Stop.inside stop' := by
  rw [walk, Graph.walk_eq_walkNodes] at h
  rcases Traced.bind_error_iff.1 h with h | ⟨t₀, hs, h⟩
  · exact ⟨[], c, stop, .self c, .start h, rfl⟩
  obtain ⟨done, n, rest, t, hsplit, hd, hv⟩ := exists_of_walkNodes_error h
  have hat : c.At setup done n rest t := ⟨hsplit, Traced.bind_ok_iff.2 ⟨t₀, hs, hd⟩⟩
  rw [Node.visit_eq] at hv
  rcases Traced.bind_error_iff.1 hv with hv | ⟨given, hr, hv⟩
  · obtain ⟨fault, hr, rfl⟩ := Traced.ofFault_error_iff.1 hv
    exact ⟨[], c, _, .self c, .read hat hr, rfl⟩
  rw [Traced.ofFault_ok_iff] at hr
  rcases Traced.bind_error_iff.1 hv with hv | ⟨made, hm, hv⟩
  · cases hb : n.body with
    | plain attrs =>
      rw [hb] at hv
      exact ⟨[], c, stop, .self c, .rule hat hb hr hv, rfl⟩
    | fused inner =>
      rw [hb] at hv
      rcases Traced.bind_error_iff.1 hv with hv | ⟨seeds, hseeds, hv⟩
      · exact ⟨[], c, stop, .self c, .seeds hat hb hr hv, rfl⟩
      rw [Traced.outcome_emit_bind] at hv
      rcases Traced.bind_error_iff.1 hv with hv | ⟨t', hw, hv⟩
      · obtain ⟨stop₁, hw, rfl⟩ := Traced.inside_error_iff.1 hv
        have hlt : sizeOf inner < sizeOf c.graph :=
          Graph.sizeOf_inner_lt (hsplit ▸ by simp) hb
        obtain ⟨labels, c', stop', he, hstop, rfl⟩ :=
          exists_stops (c := ⟨c.depth + 1, inner, seeds⟩) hw
        exact ⟨n.label :: labels, c', stop', .inside hat hb hr hseeds he, hstop, rfl⟩
      · rw [Traced.outcome_inside_eq_ok_iff] at hw
        rw [Traced.outcome_emit_bind] at hv
        exact ⟨[], c, stop, .self c, .collect hat hb hr hseeds hw hv, rfl⟩
  · exact ⟨[], c, stop, .self c, .store hat hr hm hv, rfl⟩
termination_by sizeOf c.graph

end Call

end ShapeFlow
