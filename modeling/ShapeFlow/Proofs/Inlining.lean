import ShapeFlow.Proofs.Filling
import ShapeFlow.Proofs.Renaming
import ShapeFlow.Proofs.Run

/-! Inlining a fused node. The nodes of the inner graph take the place of the fused node; they read its
    inputs where they read those of the inner graph, make fresh wires, and later readers turn to
    these. On plain tensors nothing is lost: the two runs succeed together and agree on all that they
    have in common.

    Two tables are kept in step on the way, with the renaming changing as the walk goes on. Before
    the node they know the same; over the inner nodes the table of the inner walk is followed under
    inner names; after the node the table of the outer walk is followed, with its outputs redirected. -/

namespace ShapeFlow

/-- The wire is a value of the graph, or is read or asked for. -/
def Graph.Mentions (g : Graph) (w : Wire) : Prop :=
  w.index < g.valueCount ∨ w ∈ g.outputs ∨ ∃ n ∈ g.nodes, w ∈ n.inputs

/-- A fused node at its place in a graph, with as many inputs and outputs as its inner graph. -/
structure FusedSite (g : Graph) where
  done : List Node
  label : Label
  ins : List Wire
  outs : List Wire
  inner : Graph
  rest : List Node
  split : g.nodes = done ++ ⟨label.op, label.name, ins, outs, .fused inner⟩ :: rest
  length_inputs : inner.inputs.length = ins.length
  length_outputs : inner.outputs.length = outs.length

/-- A naming of the inner wires by distinct wires that the outer graph does not mention. -/
structure Fresh (g inner : Graph) (fresh : Wire → Wire) : Prop where
  apart : ∀ v w, inner.Mentions v → inner.Mentions w → fresh v = fresh w → v = w
  new : ∀ w, inner.Mentions w → ¬ g.Mentions (fresh w)

namespace FusedSite

variable {g : Graph} (s : FusedSite g) (fresh : Wire → Wire)

/-- The fused node. -/
def node : Node := ⟨s.label.op, s.label.name, s.ins, s.outs, .fused s.inner⟩

/-- What an inner wire is called outside: an input of the inner graph is what the node reads there. -/
def image (w : Wire) : Wire := ((s.inner.inputs.zip s.ins).lookup w).getD (fresh w)

/-- What a reader after the node turns to. -/
def redirect (w : Wire) : Wire :=
  match (s.outs.zip s.inner.outputs).lookup w with
  | some v => s.image fresh v
  | none => w

/-- The graph with the inner nodes in place of the fused one. -/
def inlined (names : List (Option String)) : Graph where
  valueNames := names
  nodes := s.done ++ (s.inner.nodes.map (Node.rewire (s.image fresh) (s.image fresh))
    ++ s.rest.map (Node.rewire (s.redirect fresh) id))
  inputs := g.inputs
  outputs := g.outputs.map (s.redirect fresh)

/-- The reports of the graph and of the inlined graph agree: on the values that are in both, on the
    outputs of the inner graph, and on what the graphs are asked for. -/
structure Agree (r r' : Report) : Prop where
  others : ∀ w, w.index < g.valueCount → w ∉ s.outs → r'.get? w = r.get? w
  images : ∀ p ∈ s.outs.zip s.inner.outputs, r'.get? (s.image fresh p.2) = r.get? p.1
  outputs : r'.outputs = r.outputs

end FusedSite

/-! ### Looking up in a zip -/

section

variable {ks vs : List Wire} {infos : List ValueInfo} {f : Wire → Option ValueInfo}

/-- Where values are what a function says of other keys, looking up goes through these. -/
theorem lookup_zip_of_map_eq (h : vs.map f = infos.map some) (w : Wire) :
    (ks.zip infos).lookup w = ((ks.zip vs).lookup w).bind f := by
  induction ks generalizing vs infos with
  | nil => rfl
  | cons k ks ih =>
    cases vs with
    | nil => cases infos with
      | nil => rfl
      | cons => cases h
    | cons v vs =>
      cases infos with
      | nil => cases h
      | cons info infos =>
        rw [List.map_cons, List.map_cons, List.cons.injEq] at h
        rw [List.zip_cons_cons, List.zip_cons_cons, List.lookup_cons, List.lookup_cons, ih h.2]
        cases w == k
        · rfl
        · exact h.1.symm

theorem mem_of_lookup_zip {w v : Wire} (h : (ks.zip vs).lookup w = some v) : w ∈ ks ∧ v ∈ vs := by
  obtain ⟨front, back, he, -⟩ := List.lookup_eq_some_iff.1 h
  exact List.of_mem_zip (he ▸ by simp)

theorem lookup_zip_eq_none {w : Wire} (h : w ∉ ks) : (ks.zip vs).lookup w = none := by
  cases hl : (ks.zip vs).lookup w with
  | none => rfl
  | some v => exact absurd (mem_of_lookup_zip hl).1 h

/-- With distinct keys each pair of a zip is found. -/
theorem lookup_zip_of_mem (hnd : ks.Nodup) {p : Wire × Wire} (hp : p ∈ ks.zip vs) :
    (ks.zip vs).lookup p.1 = some p.2 := by
  induction ks generalizing vs with
  | nil => cases hp
  | cons k ks ih =>
    cases vs with
    | nil => cases hp
    | cons v vs =>
      rw [List.nodup_cons] at hnd
      rw [List.zip_cons_cons] at hp ⊢
      rcases List.mem_cons.1 hp with rfl | hp
      · simp
      · have hne : (p.1 == k) = false := by
          simpa using fun he : p.1 = k => hnd.1 (he ▸ (List.of_mem_zip hp).1)
        rw [List.lookup_cons, hne]
        exact ih hnd.2 hp

end

/-! ### Renaming at the site -/

namespace FusedSite

variable {g : Graph} (s : FusedSite g) {fresh : Wire → Wire}

theorem image_of_lookup {w v : Wire} (h : (s.inner.inputs.zip s.ins).lookup w = some v) :
    s.image fresh w = v := by rw [image, h]; rfl

theorem image_of_not_mem {w : Wire} (h : w ∉ s.inner.inputs) : s.image fresh w = fresh w := by
  rw [image, lookup_zip_eq_none h]; rfl

/-- An inner wire is called as an input of the node, or by its fresh name. -/
theorem image_cases (fresh : Wire → Wire) (w : Wire) :
    s.image fresh w ∈ s.ins ∨ s.image fresh w = fresh w := by
  cases h : (s.inner.inputs.zip s.ins).lookup w with
  | some v => exact .inl (s.image_of_lookup h ▸ (mem_of_lookup_zip h).2)
  | none => exact .inr (by rw [image, h]; rfl)

theorem redirect_of_not_mem {w : Wire} (h : w ∉ s.outs) : s.redirect fresh w = w := by
  rw [redirect, lookup_zip_eq_none h]

theorem node_mem : s.node ∈ g.nodes := by
  rw [s.split]
  exact List.mem_append_right _ List.mem_cons_self

theorem mentions_of_mem_ins {w : Wire} (h : w ∈ s.ins) : g.Mentions w :=
  .inr (.inr ⟨s.node, s.node_mem, h⟩)

section

variable (hf : Fresh g s.inner fresh)
include hf

/-- Inner nodes keep their wires apart from all others under outer names. -/
theorem rewires_inner (hi : s.inner.Distinct) {n : Node} (hn : n ∈ s.inner.nodes) :
    Rewires s.inner.Mentions (s.image fresh) (s.image fresh) n where
  inputs w hw := .inr (.inr ⟨n, hn, hw⟩)
  outputs o ho := .inl (hi.lt_valueCount o (List.mem_append_right _ (mem_outputsOf.2 ⟨n, hn, ho⟩)))
  make_eq _ _ := rfl
  apart o ho w hw he := by
    have hm : o ∈ outputsOf s.inner.nodes := mem_outputsOf.2 ⟨n, hn, ho⟩
    have hom : s.inner.Mentions o := .inl (hi.lt_valueCount o (List.mem_append_right _ hm))
    have hni : o ∉ s.inner.inputs := fun h => (List.nodup_append.1 hi.nodup).2.2 o h o hm rfl
    rw [s.image_of_not_mem hni] at he
    rcases s.image_cases fresh w with h | h
    · exact absurd (s.mentions_of_mem_ins (he ▸ h)) (hf.new o hom)
    · exact hf.apart w o hw hom (h ▸ he)

/-- Later nodes keep their wires apart from all others after redirection, if what the fused node reads
    was made before it. -/
theorem rewires_rest (hd : g.Distinct) (hs : ∀ w ∈ s.ins, w ∈ g.inputs ++ outputsOf s.done)
    {n : Node} (hn : n ∈ s.rest) : Rewires g.Mentions (s.redirect fresh) id n := by
  have hsplit := hd.nodup_split s.split
  have hng : n ∈ g.nodes := by
    rw [s.split]
    exact List.mem_append_right _ (List.mem_cons_of_mem _ hn)
  have hmem : ∀ o ∈ n.outputs, o ∈ outputsOf s.rest := fun o ho => mem_outputsOf.2 ⟨n, hn, ho⟩
  have houts : ∀ o ∈ n.outputs, o ∉ s.outs := fun o ho h =>
    (List.nodup_append.1 hsplit.of_append_right).2.2 o h o (hmem o ho) rfl
  have hments : ∀ o ∈ n.outputs, g.Mentions o := fun o ho =>
    .inl (hd.lt_valueCount o (List.mem_append_right _ (mem_outputsOf.2 ⟨n, hng, ho⟩)))
  refine ⟨fun w hw => .inr (.inr ⟨n, hng, hw⟩), hments,
    fun o ho => (s.redirect_of_not_mem (houts o ho)).symm, fun o ho w hw he => ?_⟩
  rw [s.redirect_of_not_mem (houts o ho), redirect] at he
  split at he
  · next v hv =>
    exfalso
    have hvm : s.inner.Mentions v := .inr (.inl (mem_of_lookup_zip hv).2)
    rcases s.image_cases fresh v with h | h
    · have hbefore := hs o (he ▸ h)
      exact (List.nodup_append.1 hsplit).2.2 o hbefore o
        (List.mem_append_right _ (hmem o ho)) rfl
    · exact hf.new v hvm (h ▸ he ▸ hments o ho)
  · exact he

end

/-! ### Tables in step -/

/-- Where the inner walk starts, the outer table knows of the outer names what it knows. -/
theorem follows_start {t t' ts : Table} {xs : List ValueInfo} (hr : t.readAll s.ins = .ok xs)
    (hs : (Walk.start s.inner.valueCount s.inner.inputs xs).outcome = .ok ts)
    (ht : t.Follows (fun _ => True) id t')
    (hempty : ∀ w, s.inner.Mentions w → t.get? (fresh w) = none) :
    ts.Follows s.inner.Mentions (s.image fresh) t' := by
  intro w hw
  obtain ⟨-, hfill⟩ := Walk.start_ok_iff.1 hs
  rw [Table.get?_insertAll hfill, Table.get?_ofSize, Option.or_none,
    lookup_zip_of_map_eq (Table.readAll_ok_iff.1 hr)]
  cases hl : (s.inner.inputs.zip s.ins).lookup w with
  | some v =>
    rw [s.image_of_lookup hl]
    exact ht v trivial
  | none =>
    rw [image, hl]
    exact (ht (fresh w) trivial).trans (hempty w hw)

/-- After the node, the inlined table knows of the redirected wires what the outer table knows. -/
theorem follows_rest {t t₁ ts t₁' : Table} {made : List ValueInfo}
    (hfill : t.insertAll (s.outs.zip made) = .ok t₁)
    (hmade : ts.readAll s.inner.outputs = .ok made)
    (hin : ts.Follows s.inner.Mentions (s.image fresh) t₁')
    (hframe : ∀ v, g.Mentions v → t₁'.get? v = t.get? v) :
    t₁.Follows g.Mentions (s.redirect fresh) t₁' := by
  intro w hw
  rw [Table.get?_insertAll hfill, lookup_zip_of_map_eq (Table.readAll_ok_iff.1 hmade), redirect]
  cases hl : (s.outs.zip s.inner.outputs).lookup w with
  | some v =>
    have hv := (mem_of_lookup_zip hl).2
    obtain ⟨info, hinfo⟩ := Option.isSome_iff_exists.1 (Table.isSome_of_readAll hmade v hv)
    rw [Option.bind_some, hinfo, Option.some_or]
    exact (hin v (.inr (.inl hv))).trans hinfo
  | none => exact hframe w hw

/-- The inner nodes leave alone what the outer graph mentions. -/
theorem get?_of_walk_inner {setup : Setup} {depth : Nat} {t t' : Table}
    (hi : s.inner.Distinct) (hf : Fresh g s.inner fresh)
    (h : (walkNodes setup depth
      (s.inner.nodes.map (Node.rewire (s.image fresh) (s.image fresh))) t).outcome = .ok t')
    {w : Wire} (hw : g.Mentions w) : t'.get? w = t.get? w := by
  refine get?_walkNodes h fun hm => ?_
  rw [outputsOf_map_rewire] at hm
  obtain ⟨o, ho, rfl⟩ := List.mem_map.1 hm
  have hni : o ∉ s.inner.inputs := fun h => (List.nodup_append.1 hi.nodup).2.2 o h o ho rfl
  rw [s.image_of_not_mem hni] at hw
  exact hf.new o (.inl (hi.lt_valueCount o (List.mem_append_right _ ho))) hw

/-- Tables in step to the end make reports that agree. -/
theorem agree_of_follows (hd : g.Distinct) {r r' : Report}
    (h : r.table.Follows g.Mentions (s.redirect fresh) r'.table)
    (ho : r'.outputs = r.outputs) : s.Agree fresh r r' where
  others w hw hn := by
    have := h w (.inl hw)
    rwa [s.redirect_of_not_mem hn] at this
  images p hp := by
    have hlt : p.1.index < g.valueCount :=
      hd.lt_of_mem_outputs s.split (List.of_mem_zip hp).1
    have := h p.1 (.inl hlt)
    rwa [redirect, lookup_zip_of_mem (hd.nodup_outputs s.split) hp] at this
  outputs := ho

/-- The later nodes leave alone what they do not make. -/
theorem get?_of_walk_rest {setup : Setup} {depth : Nat} {t t' : Table}
    (h : (walkNodes setup depth
      (s.rest.map (Node.rewire (s.redirect fresh) id)) t).outcome = .ok t')
    {w : Wire} (hw : w ∉ outputsOf s.rest) : t'.get? w = t.get? w := by
  refine get?_walkNodes h ?_
  rwa [outputsOf_map_rewire, List.map_id]

/-- Where the walk comes to the node, no fresh wire is filled. -/
theorem get?_fresh (hd : g.Distinct) (hf : Fresh g s.inner fresh) {setup : Setup}
    {given : List ValueInfo} {t : Table}
    (hat : Call.At setup ⟨0, g, given⟩ s.done s.node s.rest t) {w : Wire}
    (hw : s.inner.Mentions w) : t.get? (fresh w) = none := by
  rw [← Option.not_isSome_iff_eq_none]
  intro hs
  have hm := hat.mem_of_isSome hs
  refine hf.new w hw (.inl (hd.lt_valueCount _ ?_))
  rw [Graph.made, s.split, outputsOf_append, ← List.append_assoc]
  exact List.mem_append_left _ hm

/-- What was read of the node's inputs where they are plain tensors. -/
theorem tensors_of_readAll {t : Table} {xs : List ValueInfo} (hr : t.readAll s.ins = .ok xs)
    (hx : ∀ w ∈ s.ins, ∃ dims elem, t.get? w = some (.tensor dims elem)) :
    ∀ x ∈ xs, ∃ dims elem, x = .tensor dims elem := by
  intro x hxm
  obtain ⟨w, hwi, hwx⟩ := Table.exists_of_mem_readAll hr hxm
  obtain ⟨dims, elem, he⟩ := hx w hwi
  exact ⟨dims, elem, Option.some.inj (hwx.symm.trans he)⟩

/-! ### The node against the nodes inside -/

section

variable {setup : Setup} {given : List ValueInfo} {t t' : Table}

/-- Where a visit of the node succeeds, so do visits of the inner nodes. -/
theorem exists_walk_inner (hg : g.Built) (hm : setup.options.marks s.label.op)
    (hf : Fresh g s.inner fresh) (hat : Call.At setup ⟨0, g, given⟩ s.done s.node s.rest t)
    (hft : t.Follows (fun _ => True) id t')
    (hx : ∀ w ∈ s.ins, ∃ dims elem, t.get? w = some (.tensor dims elem)) {t₁ : Table}
    (hvisit : (s.node.visit setup 0 t).outcome = .ok t₁) :
    ∃ t₁', (walkNodes setup 0 (s.inner.nodes.map (Node.rewire (s.image fresh) (s.image fresh)))
        t').outcome = .ok t₁' ∧ t₁.Follows g.Mentions (s.redirect fresh) t₁' := by
  have hi : s.inner.Distinct := (hg.inner s.node s.node_mem s.inner rfl).distinct
  obtain ⟨xs, made, hr, hmake, -, hfill⟩ := Node.visit_ok_iff.1 hvisit
  obtain ⟨seeds, ts, hseeds, hinner, -, hmade⟩ := Body.make_fused_ok_iff.1 hmake
  obtain ⟨ts₀, hsin, hwin⟩ := Graph.walk_ok_iff.1 hinner
  have hplain := Walk.seeds_of_tensors hm (s.tensors_of_readAll hr hx)
  obtain rfl : xs = seeds := Except.ok.inj (hplain.symm.trans hseeds)
  have hfs := s.follows_start hr hsin hft fun w hwm => s.get?_fresh hg.distinct hf hat hwm
  obtain ⟨t₁', hin', hf₁⟩ := (matches_walkNodes_rewire setup 1 0
    (fun n hn => s.rewires_inner hf hi hn) hfs).of_left hwin
  exact ⟨t₁', hin', s.follows_rest hfill hmade hf₁ fun v hv =>
    (s.get?_of_walk_inner hi hf hin' hv).trans (hft v trivial)⟩

/-- Where visits of the inner nodes succeed and make what the inner graph is asked for, so does a visit
    of the node. -/
theorem exists_visit_node (hg : g.Built) (hm : setup.options.marks s.label.op)
    (hf : Fresh g s.inner fresh) (hat : Call.At setup ⟨0, g, given⟩ s.done s.node s.rest t)
    (hft : t.Follows (fun _ => True) id t')
    (hx : ∀ w ∈ s.ins, ∃ dims elem, t.get? w = some (.tensor dims elem)) {t₁' : Table}
    (hin' : (walkNodes setup 0 (s.inner.nodes.map (Node.rewire (s.image fresh) (s.image fresh)))
      t').outcome = .ok t₁')
    (hasked : ∀ w ∈ s.inner.outputs, (t₁'.get? (s.image fresh w)).isSome) :
    ∃ t₁, (s.node.visit setup 0 t).outcome = .ok t₁ ∧
      t₁.Follows g.Mentions (s.redirect fresh) t₁' := by
  have hi : s.inner.Distinct := (hg.inner s.node s.node_mem s.inner rfl).distinct
  -- the node reads its inputs, and the inner graph starts from them
  obtain ⟨xs, hr⟩ : ∃ xs, t.readAll s.ins = .ok xs := Table.exists_readAll fun w hwi => by
    obtain ⟨dims, elem, he⟩ := hx w hwi
    rw [he]
    rfl
  obtain ⟨ts₀, hts₀⟩ := Call.exists_insertAll_inputs ⟨1, s.inner, xs⟩ hi
  have hsin : (Walk.start s.inner.valueCount s.inner.inputs xs).outcome = .ok ts₀ :=
    Walk.start_ok_iff.2 ⟨by rw [Table.length_of_readAll hr, s.length_inputs], hts₀⟩
  -- the inner walk follows the visits, and finds what it is asked for
  have hfs := s.follows_start hr hsin hft fun w hwm => s.get?_fresh hg.distinct hf hat hwm
  obtain ⟨ts, hwin, hf₁⟩ := (matches_walkNodes_rewire setup 1 0
    (fun n hn => s.rewires_inner hf hi hn) hfs).of_right hin'
  have hread : ∀ w ∈ s.inner.outputs, (ts.get? w).isSome := fun w hwo => by
    rw [← hf₁ w (.inr (.inl hwo))]
    exact hasked w hwo
  obtain ⟨made, hmade⟩ := Table.exists_readAll hread
  -- the node takes over what the inner graph hands out
  have hmake : ((Body.fused s.inner).make setup 0 s.label s.outs.length xs).outcome = .ok made :=
    Body.make_fused_ok_iff.2 ⟨xs, ts, Walk.seeds_of_tensors hm (s.tensors_of_readAll hr hx),
      Graph.walk_ok_iff.2 ⟨ts₀, hsin, hwin⟩, s.length_outputs, hmade⟩
  obtain ⟨t₁, hfill⟩ := hat.exists_insertAll hg.distinct made
  have hlen : made.length ≤ s.outs.length :=
    Nat.le_of_eq ((Table.length_of_readAll hmade).trans s.length_outputs)
  exact ⟨t₁, Node.visit_ok_iff.2 ⟨xs, made, hr, hmake, hlen, hfill⟩,
    s.follows_rest hfill hmade hf₁ fun v hv =>
      (s.get?_of_walk_inner hi hf hin' hv).trans (hft v trivial)⟩

end

/-! ### The two directions -/

section

variable {setup : Setup} {names : List (Option String)} {inputs : List RuntimeInput}

theorem exists_infer_inlined (hg : g.Built) (hm : setup.options.marks s.label.op)
    (hf : Fresh g s.inner fresh) {r : Report} (h : (g.infer setup inputs).outcome = .ok r)
    (hx : ∀ w ∈ s.ins, ∃ dims elem, r.get? w = some (.tensor dims elem)) :
    ∃ r', ((s.inlined fresh names).infer setup inputs).outcome = .ok r' ∧ s.Agree fresh r r' := by
  have hd := hg.distinct
  -- the run on the graph, taken apart at the node
  obtain ⟨given, hinfos, hw, ho, -⟩ := Graph.infer_ok_iff.1 h
  obtain ⟨t₀, hstart, hnodes⟩ := Graph.walk_ok_iff.1 hw
  rw [s.split] at hnodes
  obtain ⟨t, hdone, hnodes⟩ := walkNodes_append_ok_iff.1 hnodes
  obtain ⟨t₁, hvisit, hrest⟩ := walkNodes_cons_ok_iff.1 hnodes
  obtain ⟨xs, -, hr, -, -, -⟩ := Node.visit_ok_iff.1 hvisit
  have hat : Call.At setup ⟨0, g, given⟩ s.done s.node s.rest t :=
    ⟨s.split, Traced.bind_ok_iff.2 ⟨t₀, hstart, hdone⟩⟩
  have hsettled : ∀ w ∈ s.ins, w ∈ g.inputs ++ outputsOf s.done := fun w hwi =>
    hat.mem_of_isSome (Table.isSome_of_readAll hr w hwi)
  have hknown : ∀ w ∈ s.ins, ∃ dims elem, t.get? w = some (.tensor dims elem) := by
    intro w hwi
    obtain ⟨info, hi⟩ := Option.isSome_iff_exists.1 (Table.isSome_of_readAll hr w hwi)
    have hlater := (within_of_visit hvisit).trans (within_of_walkNodes hrest) w info hi
    obtain ⟨dims, elem, he⟩ := hx w hwi
    exact ⟨dims, elem, hi.trans (hlater.symm.trans he)⟩
  -- the run on the inlined graph, put together in the same order
  obtain ⟨t₀', hstart', hf₀⟩ :=
    (matches_start g.valueCount names.length g.inputs given).of_left hstart
  obtain ⟨t', hdone', hft⟩ := (matches_walkNodes setup 0 0 s.done hf₀).of_left hdone
  obtain ⟨t₁', hin', hfr⟩ := s.exists_walk_inner hg hm hf hat hft hknown hvisit
  obtain ⟨t₂', hrest', hf₂⟩ := (matches_walkNodes_rewire setup 0 0
    (fun n hn => s.rewires_rest hf hd hsettled hn) hfr).of_left hrest
  have ho' := (hf₂.readAll_ok_iff (fun w hwo => .inr (.inl hwo)) _).1 ho
  refine ⟨⟨s.inlined fresh names, t₂', r.outputs⟩, Graph.infer_ok_iff.2 ⟨given, hinfos, ?_, ho', rfl⟩,
    s.agree_of_follows hd hf₂ rfl⟩
  exact Graph.walk_ok_iff.2 ⟨t₀', hstart', walkNodes_append_ok_iff.2
    ⟨t', hdone', walkNodes_append_ok_iff.2 ⟨t₁', hin', hrest'⟩⟩⟩

theorem exists_infer_of_inlined (hg : g.Built) (hm : setup.options.marks s.label.op)
    (hf : Fresh g s.inner fresh) {r' : Report}
    (h : ((s.inlined fresh names).infer setup inputs).outcome = .ok r')
    (hsettled : ∀ w ∈ s.ins, w ∈ g.inputs ++ outputsOf s.done)
    (hx : ∀ w ∈ s.ins, ∃ dims elem, r'.get? w = some (.tensor dims elem))
    (hasked : ∀ w ∈ s.inner.outputs, (r'.get? (s.image fresh w)).isSome) :
    ∃ r, (g.infer setup inputs).outcome = .ok r ∧ s.Agree fresh r r' := by
  have hd := hg.distinct
  have hi : s.inner.Distinct := (hg.inner s.node s.node_mem s.inner rfl).distinct
  -- the run on the inlined graph, taken apart at the place of the node
  obtain ⟨given, hinfos, hw, ho', -⟩ := Graph.infer_ok_iff.1 h
  obtain ⟨t₀', hstart', hnodes⟩ := Graph.walk_ok_iff.1 hw
  obtain ⟨t', hdone', hnodes⟩ := walkNodes_append_ok_iff.1 hnodes
  obtain ⟨t₁', hin', hrest'⟩ := walkNodes_append_ok_iff.1 hnodes
  -- the run on the graph up to the node
  obtain ⟨t₀, hstart, hf₀⟩ :=
    (matches_start g.valueCount names.length g.inputs given).of_right hstart'
  obtain ⟨t, hdone, hft⟩ := (matches_walkNodes setup 0 0 s.done hf₀).of_right hdone'
  have hat : Call.At setup ⟨0, g, given⟩ s.done s.node s.rest t :=
    ⟨s.split, Traced.bind_ok_iff.2 ⟨t₀, hstart, hdone⟩⟩
  -- what later nodes make is neither read by the node nor made inside of it
  have hlater : ∀ w ∈ s.ins, w ∉ outputsOf s.rest := fun w hwi hwr =>
    (List.nodup_append.1 (hd.nodup_split s.split)).2.2 w (hsettled w hwi) w
      (List.mem_append_right _ hwr) rfl
  have hknown : ∀ w ∈ s.ins, ∃ dims elem, t.get? w = some (.tensor dims elem) := by
    intro w hwi
    obtain ⟨dims, elem, he⟩ := hx w hwi
    rw [Report.get?, s.get?_of_walk_rest hrest' (hlater w hwi),
      s.get?_of_walk_inner hi hf hin' (s.mentions_of_mem_ins hwi)] at he
    exact ⟨dims, elem, (hft w trivial).symm.trans he⟩
  have hmade : ∀ w ∈ s.inner.outputs, (t₁'.get? (s.image fresh w)).isSome := by
    intro w hwo
    have hnr : s.image fresh w ∉ outputsOf s.rest := by
      rcases s.image_cases fresh w with hc | hc
      · exact hlater _ hc
      · rw [hc]
        refine fun hmr => hf.new w (.inr (.inl hwo)) (.inl (hd.lt_valueCount _ ?_))
        rw [Graph.made, s.split, outputsOf_append, outputsOf_cons]
        exact List.mem_append_right _ (List.mem_append_right _ (List.mem_append_right _ hmr))
    rw [← s.get?_of_walk_rest hrest' hnr]
    exact hasked w hwo
  -- the node itself, and the nodes after it
  obtain ⟨t₁, hvisit, hfr⟩ := s.exists_visit_node hg hm hf hat hft hknown hin' hmade
  obtain ⟨t₂, hrest, hf₂⟩ := (matches_walkNodes_rewire setup 0 0
    (fun n hn => s.rewires_rest hf hd hsettled hn) hfr).of_right hrest'
  have ho := (hf₂.readAll_ok_iff (fun w hwo => .inr (.inl hwo)) _).2 ho'
  refine ⟨⟨g, t₂, r'.outputs⟩, Graph.infer_ok_iff.2 ⟨given, hinfos, ?_, ho, rfl⟩,
    s.agree_of_follows hd hf₂ rfl⟩
  refine Graph.walk_ok_iff.2 ⟨t₀, hstart, ?_⟩
  rw [s.split]
  exact walkNodes_append_ok_iff.2 ⟨t, hdone, walkNodes_cons_ok_iff.2 ⟨t₁, hvisit, hrest⟩⟩

end

end FusedSite

/-- INLINING: a fused node that takes plain tensors can be replaced by the nodes inside. If the run on
    the graph succeeds, so does the one on the inlined graph, and the reports agree. Back again, a
    run on the inlined graph has to have made what the node reads before it and what the inner
    graph is asked for. -/
theorem Graph.infer_inlined (setup : Setup) {g : Graph} (hg : g.Built) (s : FusedSite g)
    (hm : setup.options.marks s.label.op) {fresh : Wire → Wire} (hf : Fresh g s.inner fresh)
    (names : List (Option String)) (inputs : List RuntimeInput) :
    (∀ r, (g.infer setup inputs).outcome = .ok r →
      (∀ w ∈ s.ins, ∃ dims elem, r.get? w = some (.tensor dims elem)) →
        ∃ r', ((s.inlined fresh names).infer setup inputs).outcome = .ok r' ∧
          s.Agree fresh r r') ∧
    (∀ r', ((s.inlined fresh names).infer setup inputs).outcome = .ok r' →
      (∀ w ∈ s.ins, w ∈ g.inputs ++ outputsOf s.done ∧
        ∃ dims elem, r'.get? w = some (.tensor dims elem)) →
      (∀ w ∈ s.inner.outputs, (r'.get? (s.image fresh w)).isSome) →
        ∃ r, (g.infer setup inputs).outcome = .ok r ∧ s.Agree fresh r r') :=
  ⟨fun _ h hx => s.exists_infer_inlined hg hm hf h hx,
    fun _ h hx ha => s.exists_infer_of_inlined hg hm hf h (fun w hw => (hx w hw).1)
      (fun w hw => (hx w hw).2) ha⟩

/-! ### Inlining a graph that passes an input on -/

/-- Two inputs, of which one is squashed and the other is passed on. -/
def passingGraph : Graph :=
  ((Graph.empty.withInput "x" ⟨0⟩).withInput "y" ⟨1⟩).withNode "aten::relu" [⟨0⟩]
    (.plain Keyed.empty) [⟨2⟩] |>.addOutput ⟨2⟩ |>.addOutput ⟨1⟩

/-- The graph above fused, over one wire that is taken twice, with a node that reads what it passes. -/
def pairedGraph : Graph :=
  ((Graph.empty.withInput "x" ⟨0⟩).withNode "glow::FusionGroup" [⟨0⟩, ⟨0⟩] (.fused passingGraph)
    [⟨1⟩, ⟨2⟩]).withNode "aten::add" [⟨1⟩, ⟨2⟩] (.plain Keyed.empty) [⟨3⟩]
      |>.addOutput ⟨3⟩ |>.addOutput ⟨2⟩

theorem built_pairedGraph : pairedGraph.Built :=
  .addOutput (.addOutput (.addOp (.addFused (.addInput .empty "x" rfl)
    (.addOutput (.addOutput (.addOp (.addInput (.addInput .empty "x" rfl) "y" rfl) "aten::relu" [⟨0⟩]
      Keyed.empty 1 rfl) ⟨2⟩) ⟨1⟩)
    "glow::FusionGroup" [⟨0⟩, ⟨0⟩] 2 rfl) "aten::add" [⟨1⟩, ⟨2⟩] Keyed.empty 1 rfl) ⟨3⟩) ⟨2⟩

/-- The fused node of the graph. -/
def pairedSite : FusedSite pairedGraph where
  done := []
  label := ⟨"glow::FusionGroup", none⟩
  ins := [⟨0⟩, ⟨0⟩]
  outs := [⟨1⟩, ⟨2⟩]
  inner := passingGraph
  rest := [⟨"aten::add", none, [⟨1⟩, ⟨2⟩], [⟨3⟩], .plain Keyed.empty⟩]
  split := rfl
  length_inputs := rfl
  length_outputs := rfl

/-- Numbers beyond those of the graph are fresh. -/
theorem fresh_pairedGraph : Fresh pairedGraph passingGraph fun w => ⟨w.index + 4⟩ where
  apart v w _ _ h := by
    cases v
    cases w
    simpa using h
  new w _ h := by
    have houts : ∀ v ∈ pairedGraph.outputs, v.index < 4 := by decide
    have hins : ∀ n ∈ pairedGraph.nodes, ∀ v ∈ n.inputs, v.index < 4 := by decide
    have hge : ¬ w.index + 4 < 4 := Nat.not_lt.2 (Nat.le_add_left 4 w.index)
    rcases h with h | h | ⟨n, hn, h⟩
    · exact hge h
    · exact hge (houts _ h)
    · exact hge (hins n hn _ h)

theorem Graph.infer_inlined_pairedGraph :
    ∃ r r', (pairedGraph.infer ⟨.builtin, .default⟩ [.tensor [2, 3] .float]).outcome = .ok r ∧
      ((pairedSite.inlined (fun w => ⟨w.index + 4⟩) []).infer ⟨.builtin, .default⟩
        [.tensor [2, 3] .float]).outcome = .ok r' ∧
      pairedSite.Agree (fun w => ⟨w.index + 4⟩) r r' ∧
      r'.outputs = [.tensor [2, 3] (some .float), .tensor [2, 3] (some .float)] := by
  have h := (Graph.infer_inlined ⟨.builtin, .default⟩ built_pairedGraph pairedSite rfl
    fresh_pairedGraph [] [.tensor [2, 3] .float]).1 _ rfl ?_
  · obtain ⟨r', hr', ha⟩ := h
    exact ⟨_, r', rfl, hr', ha, ha.outputs⟩
  · intro w hw
    obtain rfl : w = ⟨0⟩ := by simpa [pairedSite] using hw
    exact ⟨[2, 3], some .float, rfl⟩

end ShapeFlow
