import ShapeFlow.Proofs.Coverage

/-! Filling wires in a built graph. The wires made are distinct and lie below the number of values, so
    where a walk comes to a node all that the node makes is still empty, and the table has one slot
    for each value throughout. So a walk only ever fills slots that are there and empty, in every
    graph that it enters. -/

namespace ShapeFlow

namespace Graph.Distinct

variable {g : Graph} (h : g.Distinct)
include h

/-- What a node makes was not made before it. -/
theorem not_mem_before {done rest : List Node} {n : Node} (hs : g.nodes = done ++ n :: rest)
    {w : Wire} (hw : w ∈ n.outputs) : w ∉ g.inputs ++ outputsOf done := by
  have := (List.nodup_append.1 (h.nodup_split hs)).2.2
  exact fun hm => this w hm w (List.mem_append_left _ hw) rfl

theorem nodup_outputs {done rest : List Node} {n : Node} (hs : g.nodes = done ++ n :: rest) :
    n.outputs.Nodup := (h.nodup_split hs).of_append_right.of_append_left

theorem lt_of_mem_outputs {done rest : List Node} {n : Node} (hs : g.nodes = done ++ n :: rest)
    {w : Wire} (hw : w ∈ n.outputs) : w.index < g.valueCount := by
  refine h.lt_valueCount w (List.mem_append_right _ (mem_outputsOf.2 ⟨n, ?_, hw⟩))
  rw [hs]
  simp

end Graph.Distinct

namespace Call

variable {setup : Setup} {c : Call}

/-- Where a walk comes to a node, all that the node makes is empty. -/
theorem At.get?_eq_none (hd : c.graph.Distinct) {done rest : List Node} {n : Node} {t : Table}
    (h : c.At setup done n rest t) {w : Wire} (hw : w ∈ n.outputs) : t.get? w = none := by
  rw [← Option.not_isSome_iff_eq_none]
  exact fun hs => hd.not_mem_before h.split hw (h.mem_of_isSome hs)

/-- The table has a slot for each value throughout the walk. -/
theorem At.size_eq (hd : c.graph.Distinct) {done rest : List Node} {n : Node} {t : Table}
    (h : c.At setup done n rest t) : t.slots.size = c.graph.valueCount := by
  obtain ⟨t₀, hs, hw⟩ := h.exists_start
  have h₀ := size_start hs fun w hw => hd.lt_valueCount w (List.mem_append_left _ hw)
  rw [← h₀]
  refine size_walkNodes hw fun w hw => ?_
  rw [h₀]
  refine hd.lt_valueCount w (List.mem_append_right _ ?_)
  rw [h.split, outputsOf_append]
  exact List.mem_append_left _ hw

/-- The inputs of a graph can always be filled. -/
theorem exists_insertAll_inputs (c : Call) (hd : c.graph.Distinct) :
    ∃ t, (Table.ofSize c.graph.valueCount).insertAll (c.graph.inputs.zip c.given) = .ok t :=
  Table.exists_insertAll_zip hd.nodup_inputs (fun w _ => Table.get?_ofSize _ w) c.given

/-- The outputs of a node can always be filled. -/
theorem At.exists_insertAll (hd : c.graph.Distinct) {done rest : List Node} {n : Node} {t : Table}
    (h : c.At setup done n rest t) (made : List ValueInfo) :
    ∃ t', t.insertAll (n.outputs.zip made) = .ok t' :=
  Table.exists_insertAll_zip (hd.nodup_outputs h.split) (fun _ hw => h.get?_eq_none hd hw) made

/-- Halfway through filling distinct empty wires, the next one is still empty. -/
theorem empty_of_row {ws : List Wire} {infos : List ValueInfo}
    {before after : List (Wire × ValueInfo)} {w : Wire} {info : ValueInfo} {t₀ t : Table}
    (hnd : ws.Nodup) (hfree : ∀ v ∈ ws, t₀.get? v = none)
    (hlt : ∀ v ∈ ws, v.index < t₀.slots.size) (hz : ws.zip infos = before ++ (w, info) :: after)
    (ht : t₀.insertAll before = .ok t) :
    t.get? w = none ∧ w.index < t₀.slots.size ∧ t.slots.size = t₀.slots.size := by
  have hkeys : before.map (·.1) ++ w :: after.map (·.1) = ws.take infos.length := by
    rw [← Table.map_fst_zip_eq_take, hz, List.map_append, List.map_cons]
  have hsub : ∀ v ∈ before.map (·.1) ++ w :: after.map (·.1), v ∈ ws := fun v hv =>
    List.mem_of_mem_take (hkeys ▸ hv)
  have hw : w ∈ ws := hsub w (by simp)
  have hn : w ∉ before.map (·.1) := by
    have hnd' := hkeys.symm ▸ hnd.sublist (List.take_sublist infos.length ws)
    exact fun hm => (List.nodup_append.1 hnd').2.2 w hm w List.mem_cons_self rfl
  refine ⟨?_, hlt w hw, ?_⟩
  · rw [Table.get?_insertAll_of_not_mem ht hn, hfree w hw]
  · exact Table.size_insertAll ht fun v hv => hlt v (hsub v (List.mem_append_left _ hv))

/-- A wire that a walk fills is empty just before, and the table has a slot for it. -/
theorem Fills.empty_and_lt (hd : c.graph.Distinct) {t : Table} {w : Wire} {info : ValueInfo}
    (h : c.Fills setup t w info) :
    t.get? w = none ∧ w.index < c.graph.valueCount ∧ t.slots.size = c.graph.valueCount := by
  cases h with
  | input _ hz ht =>
    have hsize : (Table.ofSize c.graph.valueCount).slots.size = c.graph.valueCount :=
      Array.size_replicate
    have := empty_of_row hd.nodup_inputs (fun v _ => Table.get?_ofSize _ v)
      (fun v hv => hsize.symm ▸ hd.lt_valueCount v (List.mem_append_left _ hv)) hz ht
    rwa [hsize] at this
  | output hat _ _ _ hz ht =>
    have hsize := hat.size_eq hd
    have := empty_of_row (hd.nodup_outputs hat.split) (fun v hv => hat.get?_eq_none hd hv)
      (fun v hv => hsize.symm ▸ hd.lt_of_mem_outputs hat.split hv) hz ht
    rwa [hsize] at this

end Call

end ShapeFlow
