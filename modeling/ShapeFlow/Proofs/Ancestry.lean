import ShapeFlow.Proofs.Run

/-! What a wire depends on. The cone of a wire holds the wire and, with any wire that a node makes,
    all that the node reads. Tables that agree on a set of wires agree on it after a visit, if the
    node makes none of these wires or reads nothing but them; and the cone of a wire is such a set
    for every node. So runs that start alike inside the cone end alike there, and what differs
    outside of it never comes in. -/

namespace ShapeFlow

/-- The wires that the wire `v` depends on: the least set with `v` in it that holds, with any output
    of a node, all inputs of the node. -/
inductive Graph.Cone (g : Graph) (v : Wire) : Wire → Prop where
  | self : Cone g v v
  | input {n : Node} {w x : Wire} (hn : n ∈ g.nodes) (hw : w ∈ n.outputs) (hc : Cone g v w)
      (hx : x ∈ n.inputs) : Cone g v x

/-- If the node makes one of the wires, all that it reads is among them. -/
def Node.ReadsWithin (n : Node) (S : Wire → Prop) : Prop :=
  ∀ w ∈ n.outputs, S w → ∀ x ∈ n.inputs, S x

instance (n : Node) (S : Wire → Prop) [DecidablePred S] : Decidable (n.ReadsWithin S) :=
  inferInstanceAs (Decidable (∀ w ∈ n.outputs, S w → ∀ x ∈ n.inputs, S x))

/-- Two tables know the same of some wires. -/
def Table.AgreeOn (S : Wire → Prop) (t t' : Table) : Prop := ∀ w, S w → t.get? w = t'.get? w

namespace Graph

variable {g : Graph} {v : Wire}

theorem readsWithin_cone (g : Graph) (v : Wire) : ∀ n ∈ g.nodes, n.ReadsWithin (g.Cone v) :=
  fun _ hn _ hw hc _ hx => .input hn hw hc hx

/-- The cone lies within every such set that the wire is in. -/
theorem Cone.within {S : Wire → Prop} (hS : ∀ n ∈ g.nodes, n.ReadsWithin S) (hv : S v) {w : Wire}
    (hw : g.Cone v w) : S w := by
  induction hw with
  | self => exact hv
  | input hn hw _ hx ih => exact hS _ hn _ hw ih _ hx

end Graph

/-! ### Agreement is kept -/

section

variable {S : Wire → Prop} {setup : Setup} {depth : Nat} {t t' t₁ t₁' : Table}

/-- Wires on which tables agree read alike. -/
theorem Table.AgreeOn.readAll (h : t.AgreeOn S t') {ws : List Wire} (hws : ∀ w ∈ ws, S w)
    {infos infos' : List ValueInfo} (hr : t.readAll ws = .ok infos)
    (hr' : t'.readAll ws = .ok infos') : infos = infos' := by
  rw [Table.readAll_ok_iff] at hr hr'
  have hsame : ws.map t.get? = ws.map t'.get? := List.map_congr_left fun w hw => h w (hws w hw)
  rw [hr, hr'] at hsame
  exact (List.map_inj_right fun _ _ => Option.some.inj).1 hsame

/-- A visit keeps tables in agreement: what it makes of wires agreed on is agreed on. -/
theorem agreeOn_visit {n : Node} (hn : n.ReadsWithin S) (h : t.AgreeOn S t')
    (hv : (n.visit setup depth t).outcome = .ok t₁)
    (hv' : (n.visit setup depth t').outcome = .ok t₁') : t₁.AgreeOn S t₁' := by
  intro w hw
  by_cases hout : w ∈ n.outputs
  · obtain ⟨given, made, hr, hm, -, hs⟩ := Node.visit_ok_iff.1 hv
    obtain ⟨given', made', hr', hm', -, hs'⟩ := Node.visit_ok_iff.1 hv'
    obtain rfl := h.readAll (hn w hout hw) hr hr'
    obtain rfl : made = made' := Except.ok.inj (hm.symm.trans hm')
    rw [Table.get?_insertAll hs, Table.get?_insertAll hs', h w hw]
  · rw [get?_visit hv hout, get?_visit hv' hout, h w hw]

/-- Visits keep tables in agreement. -/
theorem agreeOn_walkNodes {nodes : List Node} (hn : ∀ n ∈ nodes, n.ReadsWithin S)
    (h : t.AgreeOn S t') (hw : (walkNodes setup depth nodes t).outcome = .ok t₁)
    (hw' : (walkNodes setup depth nodes t').outcome = .ok t₁') : t₁.AgreeOn S t₁' := by
  induction nodes generalizing t t' with
  | nil =>
    obtain rfl := Except.ok.inj hw
    obtain rfl := Except.ok.inj hw'
    exact h
  | cons n nodes ih =>
    obtain ⟨t₂, hv, hrest⟩ := walkNodes_cons_ok_iff.1 hw
    obtain ⟨t₂', hv', hrest'⟩ := walkNodes_cons_ok_iff.1 hw'
    have hnext := agreeOn_visit (hn n List.mem_cons_self) h hv hv'
    exact ih (fun m hm => hn m (List.mem_cons_of_mem n hm)) hnext hrest hrest'

end

/-! ### Where runs start -/

/-- Tables agree at the start where the inputs do. -/
theorem agreeOn_start {S : Wire → Prop} {count : Nat} {inputs : List Wire}
    {given given' : List ValueInfo} {t t' : Table}
    (h : (Walk.start count inputs given).outcome = .ok t)
    (h' : (Walk.start count inputs given').outcome = .ok t')
    (hsame : ∀ (i : Nat) (w : Wire), inputs[i]? = some w → S w → given[i]? = given'[i]?) :
    t.AgreeOn S t' := by
  intro w hw
  by_cases hin : w ∈ inputs
  · obtain ⟨i, hi⟩ := List.mem_iff_getElem?.1 hin
    rw [get?_start h hi, get?_start h' hi, hsame i w hi hw]
  · rw [← isSome_start h, Option.not_isSome_iff_eq_none] at hin
    -- a wire that is no input is empty in both
    have hin' : t'.get? w = none := by
      rw [← Option.not_isSome_iff_eq_none, isSome_start h', ← isSome_start h, hin]
      exact Bool.false_ne_true
    rw [hin, hin']

/-- ANCESTRY: runs whose inputs agree in the cone of a wire know the same of the wire. -/
theorem Graph.infer_ancestry (setup : Setup) (g : Graph) (v : Wire)
    {inputs inputs' : List RuntimeInput}
    (hsame : ∀ (i : Nat) (w : Wire), g.inputs[i]? = some w → g.Cone v w → inputs[i]? = inputs'[i]?)
    {r r' : Report} (hr : (g.infer setup inputs).outcome = .ok r)
    (hr' : (g.infer setup inputs').outcome = .ok r') : r.get? v = r'.get? v := by
  obtain ⟨given, hinfos, hwalk, -⟩ := Graph.infer_ok_iff.1 hr
  obtain ⟨given', hinfos', hwalk', -⟩ := Graph.infer_ok_iff.1 hr'
  obtain ⟨t, hs, hw⟩ := Graph.walk_ok_iff.1 hwalk
  obtain ⟨t', hs', hw'⟩ := Graph.walk_ok_iff.1 hwalk'
  have hstart : t.AgreeOn (g.Cone v) t' := agreeOn_start hs hs' fun i w hi hc =>
    Run.getElem?_infos hinfos hinfos' (hsame i w hi hc)
  exact agreeOn_walkNodes (g.readsWithin_cone v) hstart hw hw' v .self

/-! ### An input outside of the cone -/

/-- A fused operator over the first of two inputs, and its sum with the second. -/
def joinedGraph : Graph :=
  (((Graph.empty.withInput "x" ⟨0⟩).withInput "y" ⟨1⟩).withNode "glow::FusionGroup" [⟨0⟩]
    (.fused (singleGraph "aten::relu")) [⟨2⟩]).withNode "aten::add" [⟨2⟩, ⟨1⟩]
      (.plain Keyed.empty) [⟨3⟩]

/-- What the fused operator makes does not depend on the second input. -/
theorem within_cone_joinedGraph {w : Wire} (hw : joinedGraph.Cone ⟨2⟩ w) : w = ⟨0⟩ ∨ w = ⟨2⟩ :=
  hw.within (S := fun w => w = ⟨0⟩ ∨ w = ⟨2⟩) (by decide) (.inr rfl)

theorem Graph.infer_ancestry_joinedGraph :
    ∃ r r', (joinedGraph.infer ⟨.builtin, .default⟩
        [.tensor [2] .float, .tensor [3, 2] .float]).outcome = .ok r ∧
      (joinedGraph.infer ⟨.builtin, .default⟩ [.tensor [2] .float, .int 7]).outcome = .ok r' ∧
      r.get? ⟨3⟩ = some (.tensor [3, 2] (some .float)) ∧
      r'.get? ⟨3⟩ = some (.tensor [2] (some .float)) ∧ r.get? ⟨2⟩ = r'.get? ⟨2⟩ := by
  have hsame : ∀ (i : Nat) (w : Wire), joinedGraph.inputs[i]? = some w →
      joinedGraph.Cone ⟨2⟩ w → [.tensor [2] .float, .tensor [3, 2] .float][i]?
        = [.tensor [2] .float, RuntimeInput.int 7][i]? := by
    intro i w hi hc
    match i with
    | 0 => rfl
    | 1 =>
      -- the second input is not in the cone
      obtain rfl : (⟨1⟩ : Wire) = w := Option.some.inj hi
      exact absurd (within_cone_joinedGraph hc) (by decide)
    | i + 2 => cases hi
  exact ⟨_, _, rfl, rfl, rfl, rfl, Graph.infer_ancestry ⟨.builtin, .default⟩ _ _ hsame rfl rfl⟩

end ShapeFlow
