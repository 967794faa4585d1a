import ShapeFlow.Proofs.Renaming
import ShapeFlow.Proofs.Run
import ShapeFlow.Proofs.Solution
import Mathlib.Logic.Equiv.Basic

/-! The order of nodes. Two graphs with the same nodes in another order, and with other numbers for what
    the nodes make, are the same system of equations under other names. A walk that finishes over
    one of them solves both, and where nodes read what comes before them a walk over the other finds
    that solution. So the runs succeed together and know the same, whichever order the nodes are
    stored in. -/

namespace ShapeFlow

/-- The second graph has the nodes of the first in some order, with all wires but the inputs under new
    names. -/
structure Graph.Reordered (π : Equiv.Perm Wire) (g g' : Graph) : Prop where
  inputs : g'.inputs = g.inputs
  fixed : ∀ w ∈ g.inputs, π w = w
  nodes : g'.nodes.Perm (g.nodes.map (Node.rewire π π))
  outputs : g'.outputs = g.outputs.map π

/-! ### Nodes under new names -/

section

variable (π : Equiv.Perm Wire)

theorem Node.rewire_symm_rewire (n : Node) : (n.rewire π π).rewire π.symm π.symm = n := by
  cases n
  simp [Node.rewire]

/-- A key is found under its new name as it was under the old one. -/
theorem lookup_zip_map (ws : List Wire) (made : List ValueInfo) (w : Wire) :
    ((ws.map π).zip made).lookup (π w) = (ws.zip made).lookup w := by
  induction ws generalizing made with
  | nil => rfl
  | cons v ws ih =>
    cases made with
    | nil => rfl
    | cons info made =>
      simp only [List.map_cons, List.zip_cons_cons, List.lookup_cons, ih]
      by_cases hw : w = v
      · simp [hw]
      · have hπ : π w ≠ π v := fun h => hw (π.injective h)
        simp [beq_eq_false_iff_ne.2 hw, beq_eq_false_iff_ne.2 hπ]

variable {π}

/-- A renamed node is solved by the renamed valuation. -/
theorem Node.SolvedBy.rewire {setup : Setup} {f : Valuation} {n : Node} (h : n.SolvedBy setup f) :
    (n.rewire π π).SolvedBy setup (f ∘ π.symm) := by
  obtain ⟨given, made, hread, hmake, hlen, houts⟩ := h
  refine ⟨given, made, ?_, ?_, ?_, ?_⟩
  · simpa [Node.rewire, Function.comp_def] using hread
  · simpa [Node.rewire, Node.label] using hmake
  · simpa [Node.rewire] using hlen
  · intro w hw
    obtain ⟨v, hv, rfl⟩ := List.mem_map.1 hw
    simpa [Node.rewire, lookup_zip_map] using houts v hv

end

/-! ### Graphs in another order -/

namespace Graph.Reordered

variable {π : Equiv.Perm Wire} {g g' : Graph}

theorem symm (h : Reordered π g g') : Reordered π.symm g' g where
  inputs := h.inputs.symm
  fixed w hw := by
    rw [h.inputs] at hw
    rw [Equiv.symm_apply_eq, h.fixed w hw]
  nodes := by
    have hid : Node.rewire π.symm π.symm ∘ Node.rewire π π = id :=
      funext (Node.rewire_symm_rewire π)
    have hback := h.nodes.symm.map (Node.rewire π.symm π.symm)
    rwa [List.map_map, hid, List.map_id] at hback
  outputs := by simp [h.outputs]

/-- What the second graph makes is what the first one makes, under new names. -/
theorem mem_made_iff (h : Reordered π g g') (w : Wire) : π w ∈ g'.made ↔ w ∈ g.made := by
  have hin : π w ∈ g.inputs ↔ w ∈ g.inputs := by
    constructor
    · intro hw
      rwa [π.injective (h.fixed _ hw)] at hw
    · intro hw
      rwa [h.fixed w hw]
  have hout : π w ∈ outputsOf g'.nodes ↔ w ∈ outputsOf g.nodes := by
    have hperm := (h.nodes.flatMap_right Node.outputs).mem_iff (a := π w)
    rw [outputsOf, hperm, ← outputsOf, outputsOf_map_rewire]
    simp
  rw [Graph.made, Graph.made, List.mem_append, List.mem_append, h.inputs, hin, hout]

/-- A solution of the first graph solves the second one under new names. -/
theorem solvedBy (h : Reordered π g g') {setup : Setup} {given : List ValueInfo} {f : Valuation}
    (hf : g.SolvedBy setup given f) : g'.SolvedBy setup given (f ∘ π.symm) where
  inputs := by
    rw [h.inputs, ← hf.inputs]
    refine List.map_congr_left fun w hw => ?_
    rw [Function.comp_apply, (Equiv.symm_apply_eq π).2 (h.fixed w hw).symm]
  nodes n hn := by
    obtain ⟨m, hm, rfl⟩ := List.mem_map.1 (h.nodes.mem_iff.1 hn)
    exact (hf.nodes m hm).rewire
  others w hw := by
    refine hf.others (π.symm w) fun hm => hw ?_
    rwa [← h.mem_made_iff, Equiv.apply_symm_apply] at hm

/-- Where the run on the first graph succeeds, so does the one on the second, if its nodes read what
    comes before them. -/
theorem exists_infer (h : Reordered π g g') (hg : g.Built) (hg' : g'.Built) (ho : g'.Ordered)
    {setup : Setup} {inputs : List RuntimeInput} {r : Report}
    (hr : (g.infer setup inputs).outcome = .ok r) :
    ∃ r', (g'.infer setup inputs).outcome = .ok r' ∧ (∀ w, r'.get? (π w) = r.get? w) ∧
      r'.outputs = r.outputs := by
  obtain ⟨given, hinfos, hw, hasked, -⟩ := Graph.infer_ok_iff.1 hr
  have hsolved := h.solvedBy (Graph.solvedBy_of_walk hg.distinct hw)
  obtain ⟨t', hw', ht'⟩ := hsolved.exists_walk hg'.distinct ho
  have hget : ∀ w, t'.get? (π w) = r.table.get? w := by
    intro w
    rw [ht', Function.comp_apply, Equiv.symm_apply_apply]
  have hasked' : t'.readAll g'.outputs = .ok r.outputs := by
    rw [Table.readAll_ok_iff, h.outputs, List.map_map, ← Table.readAll_ok_iff.1 hasked]
    exact List.map_congr_left fun w _ => hget w
  exact ⟨⟨g', t', r.outputs⟩, Graph.infer_ok_iff.2 ⟨given, hinfos, hw', hasked', rfl⟩, hget, rfl⟩

end Graph.Reordered

/-- ORDER: runs on two graphs that differ in the order of their nodes, and in the numbers of what these
    make, succeed together, know the same of each wire and hand out the same, if the nodes of both
    read what comes before them. -/
theorem Graph.infer_reordered (setup : Setup) {g g' : Graph} (hg : g.Built) (hg' : g'.Built)
    {π : Equiv.Perm Wire} (h : Reordered π g g') (ho : g.Ordered) (ho' : g'.Ordered)
    (inputs : List RuntimeInput) :
    ((∃ r, (g.infer setup inputs).outcome = .ok r) ↔
      ∃ r', (g'.infer setup inputs).outcome = .ok r') ∧
    ∀ r r', (g.infer setup inputs).outcome = .ok r → (g'.infer setup inputs).outcome = .ok r' →
      (∀ w, r.get? w = r'.get? (π w)) ∧ r.outputs = r'.outputs := by
  refine ⟨⟨?_, ?_⟩, ?_⟩
  · rintro ⟨r, hr⟩
    obtain ⟨r', hr', -⟩ := h.exists_infer hg hg' ho' hr
    exact ⟨r', hr'⟩
  · rintro ⟨r', hr'⟩
    obtain ⟨r, hr, -⟩ := h.symm.exists_infer hg' hg ho hr'
    exact ⟨r, hr⟩
  · intro r r' hr hr'
    obtain ⟨r'', hr'', hget, hout⟩ := h.exists_infer hg hg' ho' hr
    obtain rfl := Except.ok.inj (hr''.symm.trans hr')
    exact ⟨fun w => (hget w).symm, hout.symm⟩

/-! ### Two nodes that change places -/

/-- An operator over the first of two inputs, a fused one over the second, and their sum. -/
def sumGraph : Graph :=
  ((Graph.empty.withInput "x" ⟨0⟩).withInput "y" ⟨1⟩)
    |>.withNode "aten::relu" [⟨0⟩] (.plain Keyed.empty) [⟨2⟩]
    |>.withNode "glow::FusionGroup" [⟨1⟩] (.fused (singleGraph "aten::tanh")) [⟨3⟩]
    |>.withNode "aten::add" [⟨2⟩, ⟨3⟩] (.plain Keyed.empty) [⟨4⟩]
    |>.addOutput ⟨4⟩

/-- The same with the fused operator first. -/
def turnedGraph : Graph :=
  ((Graph.empty.withInput "x" ⟨0⟩).withInput "y" ⟨1⟩)
    |>.withNode "glow::FusionGroup" [⟨1⟩] (.fused (singleGraph "aten::tanh")) [⟨2⟩]
    |>.withNode "aten::relu" [⟨0⟩] (.plain Keyed.empty) [⟨3⟩]
    |>.withNode "aten::add" [⟨3⟩, ⟨2⟩] (.plain Keyed.empty) [⟨4⟩]
    |>.addOutput ⟨4⟩

theorem built_sumGraph : sumGraph.Built :=
  .addOutput (.addOp (.addFused (.addOp (.addInput (.addInput .empty "x" rfl) "y" rfl) "aten::relu"
    [⟨0⟩] Keyed.empty 1 rfl) (built_singleGraph _) "glow::FusionGroup" [⟨1⟩] 1 rfl) "aten::add"
      [⟨2⟩, ⟨3⟩] Keyed.empty 1 rfl) ⟨4⟩

theorem built_turnedGraph : turnedGraph.Built :=
  .addOutput (.addOp (.addOp (.addFused (.addInput (.addInput .empty "x" rfl) "y" rfl)
    (built_singleGraph _) "glow::FusionGroup" [⟨1⟩] 1 rfl) "aten::relu" [⟨0⟩] Keyed.empty 1 rfl)
      "aten::add" [⟨3⟩, ⟨2⟩] Keyed.empty 1 rfl) ⟨4⟩

theorem reordered_turnedGraph : Graph.Reordered (Equiv.swap ⟨2⟩ ⟨3⟩) sumGraph turnedGraph where
  inputs := rfl
  fixed := by decide
  nodes := .swap _ _ _
  outputs := by decide

theorem Graph.infer_reordered_turnedGraph :
    ∃ r r', (sumGraph.infer ⟨.builtin, .default⟩ [.tensor [2, 3] .float, .tensor [3] .half]).outcome
        = .ok r ∧
      (turnedGraph.infer ⟨.builtin, .default⟩
        [.tensor [2, 3] .float, .tensor [3] .half]).outcome = .ok r' ∧
      r'.get? ⟨2⟩ = some (.tensor [3] (some .half)) ∧ r.get? ⟨3⟩ = r'.get? ⟨2⟩ ∧
      r.outputs = r'.outputs := by
  have h := Graph.infer_reordered ⟨.builtin, .default⟩ built_sumGraph built_turnedGraph
    reordered_turnedGraph (by decide) (by decide) [.tensor [2, 3] .float, .tensor [3] .half]
  obtain ⟨r', hr'⟩ := h.1.1 ⟨_, rfl⟩
  obtain ⟨hget, hout⟩ := h.2 _ r' rfl hr'
  have hmoved := hget ⟨3⟩
  exact ⟨_, r', rfl, hr', hmoved.symm, hmoved, hout⟩

end ShapeFlow
