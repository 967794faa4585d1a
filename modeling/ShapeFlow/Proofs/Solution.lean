import ShapeFlow.Proofs.Filling

/-! Solutions of a graph. A node ties what is known of its outputs to what is known of its inputs, so a
    graph is a system of equations, one for each node, and it does not matter in which order they
    are written down. A walk that finishes leaves a table that solves the graph. Where every node
    reads what comes before it the other way holds too: the walk finishes if there is a solution at
    all, with that solution, so there is no other. -/

namespace ShapeFlow

/-- What is taken to be known of each wire. -/
abbrev Valuation := Wire → Option ValueInfo

/-- Of what is known of its inputs the node makes what is known of its outputs. Those beyond the values
    made have none. -/
def Node.SolvedBy (setup : Setup) (f : Valuation) (n : Node) : Prop :=
  ∃ given made, n.inputs.map f = given.map some ∧
    (n.body.make setup 0 n.label n.outputs.length given).outcome = .ok made ∧
      made.length ≤ n.outputs.length ∧ ∀ w ∈ n.outputs, f w = (n.outputs.zip made).lookup w

/-- All nodes are solved, the inputs have the values given, and no other wire has one. -/
structure Graph.SolvedBy (setup : Setup) (given : List ValueInfo) (f : Valuation) (g : Graph) :
    Prop where
  inputs : g.inputs.map f = given.map some
  nodes : ∀ n ∈ g.nodes, n.SolvedBy setup f
  others : ∀ w, w ∉ g.made → f w = none

/-- Every node reads inputs of the graph and what nodes before it make. -/
def Graph.Ordered (g : Graph) : Prop :=
  ∀ i (hi : i < g.nodes.length), ∀ w ∈ g.nodes[i].inputs,
    w ∈ g.inputs ++ outputsOf (g.nodes.take i)

instance (g : Graph) : Decidable g.Ordered :=
  inferInstanceAs (Decidable (∀ i (hi : i < g.nodes.length), ∀ w ∈ g.nodes[i].inputs,
    w ∈ g.inputs ++ outputsOf (g.nodes.take i)))

theorem Graph.Ordered.mem_before {g : Graph} (h : g.Ordered) {done rest : List Node} {n : Node}
    (hs : g.nodes = done ++ n :: rest) {w : Wire} (hw : w ∈ n.inputs) :
    w ∈ g.inputs ++ outputsOf done := by
  have hlt : done.length < g.nodes.length := by simp [hs]
  have := h done.length hlt w (by simpa [hs] using hw)
  simpa [hs] using this

/-! ### A finished walk solves its graph -/

section

variable {setup : Setup} {g : Graph} {given : List ValueInfo}

/-- A node that was visited is solved by the table at the end of the walk. -/
theorem Node.solvedBy_of_visit (hd : g.Distinct) {done rest : List Node} {n : Node}
    {t t₁ t' : Table} (hat : Call.At setup ⟨0, g, given⟩ done n rest t)
    (hv : (n.visit setup 0 t).outcome = .ok t₁)
    (hw : (walkNodes setup 0 rest t₁).outcome = .ok t') : n.SolvedBy setup t'.get? := by
  obtain ⟨read, made, hr, hm, hl, hs⟩ := Node.visit_ok_iff.1 hv
  have hlater := ((within_of_visit hv).trans (within_of_walkNodes hw)).readAll hr
  refine ⟨read, made, Table.readAll_ok_iff.1 hlater, hm, hl, fun w hwo => ?_⟩
  have hrest : w ∉ outputsOf rest := by
    intro hmem
    have hnd := (hd.nodup_split hat.split).of_append_right
    exact (List.nodup_append.1 hnd).2.2 w hwo w hmem rfl
  rw [get?_walkNodes hw hrest, Table.get?_insertAll hs, hat.get?_eq_none hd hwo, Option.or_none]

theorem Graph.solvedBy_of_walk (hd : g.Distinct) {t : Table}
    (h : (g.walk setup 0 given).outcome = .ok t) : g.SolvedBy setup given t.get? := by
  obtain ⟨t₀, hstart, hwalk⟩ := Graph.walk_ok_iff.1 h
  obtain ⟨hlen, hfill⟩ := Walk.start_ok_iff.1 hstart
  refine ⟨?_, ?_, ?_⟩
  · have hread := Table.readAll_ok_iff.2 (Table.map_get?_insertAll_zip hfill hlen)
    exact Table.readAll_ok_iff.1 ((within_of_walkNodes hwalk).readAll hread)
  · intro n hn
    obtain ⟨done, rest, hsplit⟩ := List.append_of_mem hn
    rw [hsplit] at hwalk
    obtain ⟨t₁, hdone, hrest⟩ := walkNodes_append_ok_iff.1 hwalk
    obtain ⟨t₂, hv, hrest⟩ := walkNodes_cons_ok_iff.1 hrest
    have hat : Call.At setup ⟨0, g, given⟩ done n rest t₁ :=
      ⟨hsplit, Traced.bind_ok_iff.2 ⟨t₀, hstart, hdone⟩⟩
    exact Node.solvedBy_of_visit hd hat hv hrest
  · intro w hw
    rw [Graph.made, List.mem_append, not_or] at hw
    rw [get?_walkNodes hwalk hw.2, ← Option.not_isSome_iff_eq_none, isSome_start hstart]
    exact hw.1

end

/-! ### A solution is what the walk finds -/

/-- The table knows of some wires what the valuation says of them, and nothing else. -/
def Table.Restricts (f : Valuation) (ws : List Wire) (t : Table) : Prop :=
  ∀ w, t.get? w = if w ∈ ws then f w else none

section

variable {setup : Setup} {g : Graph} {given : List ValueInfo} {f : Valuation}

theorem Table.Restricts.readAll {ws inputs : List Wire} {infos : List ValueInfo} {t : Table}
    (h : t.Restricts f ws) (hi : ∀ w ∈ inputs, w ∈ ws) (hf : inputs.map f = infos.map some) :
    t.readAll inputs = .ok infos := by
  rw [Table.readAll_ok_iff, ← hf]
  refine List.map_congr_left fun w hw => ?_
  rw [h w, if_pos (hi w hw)]

/-- Filling wires as the valuation says makes the table know it of them too. -/
theorem Table.Restricts.exists_insertAll {ws outputs : List Wire} {made : List ValueInfo}
    {t : Table} (h : t.Restricts f ws) (hnd : outputs.Nodup) (hfree : ∀ w ∈ outputs, w ∉ ws)
    (hf : ∀ w ∈ outputs, f w = (outputs.zip made).lookup w) :
    ∃ t', t.insertAll (outputs.zip made) = .ok t' ∧ t'.Restricts f (ws ++ outputs) := by
  have hempty : ∀ w ∈ outputs, t.get? w = none := by
    intro w hw
    rw [h w, if_neg (hfree w hw)]
  obtain ⟨t', ht'⟩ := Table.exists_insertAll_zip hnd hempty made
  refine ⟨t', ht', fun w => ?_⟩
  rw [Table.get?_insertAll ht']
  by_cases hw : w ∈ outputs
  · rw [hempty w hw, Option.or_none, ← hf w hw, if_pos (List.mem_append_right _ hw)]
  · have hkeys : w ∉ (outputs.zip made).map (·.1) := by
      rw [Table.map_fst_zip_eq_take]
      exact fun hm => hw (List.mem_of_mem_take hm)
    rw [Table.lookup_of_not_mem hkeys, Option.none_or, h w]
    simp [hw]

/-- Where the walk stands behind some nodes of a solved graph, with what the solution says of them, it
    goes on to the end. -/
theorem Graph.SolvedBy.exists_walkNodes (hf : g.SolvedBy setup given f) (hd : g.Distinct)
    (ho : g.Ordered) {done rest : List Node} (hs : g.nodes = done ++ rest) {t : Table}
    (ht : t.Restricts f (g.inputs ++ outputsOf done)) :
    ∃ t', (walkNodes setup 0 rest t).outcome = .ok t' ∧ t'.Restricts f g.made := by
  induction rest generalizing done t with
  | nil =>
    rw [List.append_nil] at hs
    exact ⟨t, rfl, by rwa [Graph.made, hs]⟩
  | cons n rest ih =>
    obtain ⟨read, made, hread, hmake, hlen, houts⟩ := hf.nodes n (by simp [hs])
    have hr := ht.readAll (fun w hw => ho.mem_before hs hw) hread
    obtain ⟨t₁, hfill, ht₁⟩ := ht.exists_insertAll (hd.nodup_outputs hs)
      (fun w hw => hd.not_mem_before hs hw) houts
    have hv : (n.visit setup 0 t).outcome = .ok t₁ :=
      Node.visit_ok_iff.2 ⟨read, made, hr, hmake, hlen, hfill⟩
    have hdone : g.inputs ++ outputsOf done ++ n.outputs = g.inputs ++ outputsOf (done ++ [n]) := by
      simp [outputsOf]
    rw [hdone] at ht₁
    obtain ⟨t', hw, ht'⟩ := ih (by simpa using hs) ht₁
    exact ⟨t', walkNodes_cons_ok_iff.2 ⟨t₁, hv, hw⟩, ht'⟩

/-- Where the walk starts, the table knows what the solution says of the inputs. -/
theorem Graph.SolvedBy.exists_start (hf : g.SolvedBy setup given f) (hd : g.Distinct) :
    ∃ t, (Walk.start g.valueCount g.inputs given).outcome = .ok t ∧ t.Restricts f g.inputs := by
  have hlen : given.length = g.inputs.length := by
    simpa using (congrArg List.length hf.inputs).symm
  obtain ⟨t, hfill⟩ := Call.exists_insertAll_inputs ⟨0, g, given⟩ hd
  have hstart : (Walk.start g.valueCount g.inputs given).outcome = .ok t :=
    Walk.start_ok_iff.2 ⟨hlen, hfill⟩
  refine ⟨t, hstart, fun w => ?_⟩
  split
  · next hw =>
    have hmap := (Table.map_get?_insertAll_zip hfill hlen).trans hf.inputs.symm
    exact List.map_inj_left.1 hmap w hw
  · next hw =>
    rw [← Option.not_isSome_iff_eq_none, isSome_start hstart]
    exact hw

theorem Graph.SolvedBy.exists_walk (hf : g.SolvedBy setup given f) (hd : g.Distinct)
    (ho : g.Ordered) : ∃ t, (g.walk setup 0 given).outcome = .ok t ∧ ∀ w, t.get? w = f w := by
  obtain ⟨t₀, hstart, ht₀⟩ := hf.exists_start hd
  have hbefore : t₀.Restricts f (g.inputs ++ outputsOf []) := by simpa [outputsOf] using ht₀
  obtain ⟨t, hw, ht⟩ := hf.exists_walkNodes hd ho (List.nil_append g.nodes).symm hbefore
  refine ⟨t, Graph.walk_ok_iff.2 ⟨t₀, hstart, hw⟩, fun w => ?_⟩
  rw [ht w]
  split
  · rfl
  · next hn => exact (hf.others w hn).symm

end

end ShapeFlow
