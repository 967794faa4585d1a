import ShapeFlow.Proofs.Descent
import ShapeFlow.Proofs.Outcome
import ShapeFlow.Proofs.Run

/-! Properties of values that a run keeps. Whatever a run knows it was given, a rule made it, or it went
    into a fused graph as a tensor. So a property of values that the inputs have, that rules keep and
    that survives the reading as a tensor holds of all that the run knows, at every level. A visit
    keeps it, hence a walk over nodes does, and a graph comes after the graphs that it holds. -/

namespace ShapeFlow

variable {I : ValueInfo → Prop}

/-- All that a table knows has a property. -/
def Table.Satisfies (I : ValueInfo → Prop) (t : Table) : Prop :=
  ∀ w info, t.get? w = some info → I info

namespace Table.Satisfies

variable {t t' : Table} {ws : List Wire} {infos : List ValueInfo}

theorem ofSize (I : ValueInfo → Prop) (n : Nat) : (Table.ofSize n).Satisfies I := by
  intro w info h
  simp at h

/-- Filling wires with values that have the property keeps it. -/
theorem insertAll (h : t.Satisfies I) (hi : ∀ x ∈ infos, I x)
    (hs : t.insertAll (ws.zip infos) = .ok t') : t'.Satisfies I := by
  intro w info hw
  rw [get?_insertAll hs] at hw
  rcases Option.or_eq_some_iff.1 hw with hl | ⟨-, ht⟩
  · obtain ⟨front, back, he, -⟩ := List.lookup_eq_some_iff.1 hl
    have hz : (w, info) ∈ ws.zip infos := by simp [he]
    exact hi info (List.of_mem_zip hz).2
  · exact h w info ht

/-- Values that are read have the property. -/
theorem readAll (h : t.Satisfies I) (hr : t.readAll ws = .ok infos) : ∀ x ∈ infos, I x := by
  intro x hx
  obtain ⟨w, -, hw⟩ := exists_of_mem_readAll hr hx
  exact h w x hw

end Table.Satisfies

/-- The rules of all nodes in a graph and in the graphs that it holds keep the property, and so does the
    reading as a tensor. -/
structure Keeps (setup : Setup) (I : ValueInfo → Prop) (g : Graph) : Prop where
  rule : ∀ h, g.Holds h → ∀ n ∈ h.nodes, ∀ attrs, n.body = .plain attrs → ∀ given made,
    (∀ x ∈ given, I x) →
      (Walk.applyRule setup n.label attrs n.outputs.length given).outcome = .ok made →
        ∀ x ∈ made, I x
  tensor : ∀ x, I x → Ensures (fun dims => I (.tensor dims x.elem)) x.asTensor

theorem Keeps.inner {setup : Setup} {g inner : Graph} {n : Node} (hk : Keeps setup I g)
    (hn : n ∈ g.nodes) (hb : n.body = .fused inner) : Keeps setup I inner :=
  ⟨fun h hh => hk.rule h (.inside hn hb hh), hk.tensor⟩

section

variable {setup : Setup} {depth : Nat}

/-- What a fused graph starts from has the property. -/
theorem Walk.forall_seeds {node : Label} {given tensors : List ValueInfo}
    (ht : ∀ x, I x → Ensures (fun dims => I (.tensor dims x.elem)) x.asTensor)
    (hg : ∀ x ∈ given, I x) (h : (seeds setup node given).outcome = .ok tensors) :
    ∀ x ∈ tensors, I x := by
  rw [seeds] at h
  split at h
  · split at h
    · next made hmade =>
      cases h
      refine Ensures.forall_mapM (fun x hx y hy => ?_) _ hmade
      cases hd : x.asTensor with
      | ok dims =>
        rw [hd] at hy
        cases hy
        exact ht x (hg x hx) dims hd
      | error halt => rw [hd] at hy; cases hy
    · cases h
    · cases h
  · cases h

/-- A visit keeps the property if what its node makes has it. -/
theorem satisfies_visit {n : Node} {t t' : Table} (ht : t.Satisfies I)
    (hm : ∀ given made, (∀ x ∈ given, I x) →
      (n.body.make setup depth n.label n.outputs.length given).outcome = .ok made →
        ∀ x ∈ made, I x)
    (h : (n.visit setup depth t).outcome = .ok t') : t'.Satisfies I := by
  obtain ⟨given, made, hr, hmake, -, hs⟩ := Node.visit_ok_iff.1 h
  exact ht.insertAll (hm given made (ht.readAll hr) hmake) hs

theorem satisfies_walkNodes {nodes : List Node} {t t' : Table} (ht : t.Satisfies I)
    (hm : ∀ n ∈ nodes, ∀ given made, (∀ x ∈ given, I x) →
      (n.body.make setup depth n.label n.outputs.length given).outcome = .ok made →
        ∀ x ∈ made, I x)
    (h : (walkNodes setup depth nodes t).outcome = .ok t') : t'.Satisfies I := by
  induction nodes generalizing t with
  | nil => obtain rfl := Except.ok.inj h; exact ht
  | cons n nodes ih =>
    obtain ⟨t₁, hv, hw⟩ := walkNodes_cons_ok_iff.1 h
    have ht₁ := satisfies_visit ht (hm n (by simp)) hv
    exact ih ht₁ (fun m hmem => hm m (List.mem_cons_of_mem _ hmem)) hw

end

/-- A walk keeps the property, in the graph and in those that it holds. -/
theorem Graph.satisfies_walk {setup : Setup} {depth : Nat} {g : Graph} (hk : Keeps setup I g)
    {given : List ValueInfo} (hg : ∀ x ∈ given, I x) {t : Table}
    (h : (g.walk setup depth given).outcome = .ok t) : t.Satisfies I := by
  obtain ⟨t₀, hs, hw⟩ := Graph.walk_ok_iff.1 h
  have ht₀ := (Table.Satisfies.ofSize I g.valueCount).insertAll hg (Walk.start_ok_iff.1 hs).2
  refine satisfies_walkNodes ht₀ (fun n hn given made hgiven hmake => ?_) hw
  cases hb : n.body with
  | plain attrs =>
    rw [hb] at hmake
    exact hk.rule g (.self g) n hn attrs hb given made hgiven hmake
  | fused inner =>
    rw [hb] at hmake
    obtain ⟨tensors, t', hseeds, ht', -, hread⟩ := Body.make_fused_ok_iff.1 hmake
    have hlt : sizeOf inner < sizeOf g := Graph.sizeOf_inner_lt hn hb
    have hinner := Graph.satisfies_walk (hk.inner hn hb)
      (Walk.forall_seeds hk.tensor hgiven hseeds) ht'
    exact hinner.readAll hread
termination_by sizeOf g

/-- A run keeps the property: all that its report knows or hands out has it. -/
theorem Graph.satisfies_infer {setup : Setup} {g : Graph} (hk : Keeps setup I g)
    {inputs : List RuntimeInput} (hi : ∀ input ∈ inputs, ∀ x, input.info? = some x → I x)
    {r : Report} (h : (g.infer setup inputs).outcome = .ok r) :
    r.table.Satisfies I ∧ ∀ x ∈ r.outputs, I x := by
  obtain ⟨given, hinfos, hw, ho, -⟩ := Graph.infer_ok_iff.1 h
  have hgiven : ∀ x ∈ given, I x := by
    intro x hx
    have hm : some x ∈ inputs.map RuntimeInput.info? :=
      Run.infos_ok_iff.1 hinfos ▸ List.mem_map_of_mem hx
    obtain ⟨input, hin, he⟩ := List.mem_map.1 hm
    exact hi input hin x he
  have ht := Graph.satisfies_walk hk hgiven hw
  exact ⟨ht, ht.readAll ho⟩

end ShapeFlow
