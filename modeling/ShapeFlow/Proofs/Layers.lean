import ShapeFlow.Proofs.Run

/-! Fused nodes as wrappers. A graph whose only node is a fused one over another graph, taking all
    inputs and giving all outputs in order, is a layer around that graph. A run on plain tensors
    cannot tell how many layers there are: it gives the same outputs, or breaks the same promise,
    and an error inside only gains the labels of the layers on its path. -/

namespace ShapeFlow

/-- A walk followed by the reading of what the graph is asked for. -/
def Graph.answer (setup : Setup) (depth : Nat) (g : Graph) (given : List ValueInfo) :
    Traced (List ValueInfo) := do
  let t ← g.walk setup depth given
  Traced.ofFault (t.readAll g.outputs)

/-- The outer graph is one fused node over the inner graph, from all its inputs to all its outputs. -/
structure IsLayer (options : Options) (label : Label) (outer inner : Graph) : Prop where
  built : outer.Built
  nodes : outer.nodes
    = [⟨label.op, label.name, outer.inputs, outer.outputs, .fused inner⟩]
  inputs : outer.inputs.length = inner.inputs.length
  outputs : outer.outputs.length = inner.outputs.length
  marked : options.marks label.op

/-- The graph `w` is `s` in layers with these labels, outermost first. -/
inductive Wrapped (options : Options) : List Label → Graph → Graph → Prop where
  | bare (s : Graph) : Wrapped options [] s s
  | layer {label : Label} {labels : List Label} {outer inner s : Graph}
      (h : IsLayer options label outer inner) (hw : Wrapped options labels inner s) :
      Wrapped options (label :: labels) outer s

theorem Wrapped.length_inputs {options : Options} {labels : List Label} {w s : Graph}
    (h : Wrapped options labels w s) : w.inputs.length = s.inputs.length := by
  induction h with
  | bare => rfl
  | layer hl _ ih => rw [hl.inputs, ih]

/-! ### One layer -/

section

variable {setup : Setup} {label : Label} {outer inner : Graph} {given : List ValueInfo}

/-- The inputs of a layer are filled, and its outputs can still be. -/
theorem IsLayer.exists_start (h : IsLayer setup.options label outer inner)
    (hl : given.length = outer.inputs.length) :
    ∃ t, (Walk.start outer.valueCount outer.inputs given).outcome = .ok t ∧
      t.readAll outer.inputs = .ok given ∧
      ∀ made : List ValueInfo, made.length = outer.outputs.length →
        ∃ t', t.insertAll (outer.outputs.zip made) = .ok t' ∧
          t'.readAll outer.outputs = .ok made := by
  have hmade : outer.made = outer.inputs ++ outer.outputs := by
    rw [Graph.made, h.nodes]
    simp [outputsOf]
  have hnd : (outer.inputs ++ outer.outputs).Nodup := hmade ▸ h.built.distinct.nodup
  obtain ⟨t, ht⟩ := Table.exists_insertAll_zip hnd.of_append_left
    (fun w _ => Table.get?_ofSize outer.valueCount w) given
  have hs : (Walk.start outer.valueCount outer.inputs given).outcome = .ok t :=
    Walk.start_ok_iff.2 ⟨hl, ht⟩
  refine ⟨t, hs, Table.readAll_ok_iff.2 (Table.map_get?_insertAll_zip ht hl), fun made hm => ?_⟩
  have hfree : ∀ w ∈ outer.outputs, t.get? w = none := fun w hw => by
    rw [← Option.not_isSome_iff_eq_none, isSome_start hs]
    exact fun hi => (List.nodup_append.1 hnd).2.2 w hi w hw rfl
  obtain ⟨t', ht'⟩ := Table.exists_insertAll_zip hnd.of_append_right hfree made
  exact ⟨t', ht', Table.readAll_ok_iff.2 (Table.map_get?_insertAll_zip ht' hm)⟩

/-- A layer answers as the graph inside, and puts its label around an error. -/
theorem IsLayer.outcome_answer (h : IsLayer setup.options label outer inner)
    (hl : given.length = outer.inputs.length)
    (hx : ∀ x ∈ given, ∃ dims elem, x = .tensor dims elem) (depth : Nat) :
    (outer.answer setup depth given).outcome
      = (inner.answer setup (depth + 1) given).outcome.mapError (Stop.inside label) := by
  obtain ⟨t, hs, hr, hfill⟩ := h.exists_start hl
  have hseeds := Walk.seeds_of_tensors h.marked hx
  simp only [Graph.answer, Graph.walk_eq_walkNodes setup depth outer, h.nodes, walkNodes,
    Node.visit, Body.make, Traced.outcome_bind, hs, hr, hseeds, Except.bind, Traced.ofFault,
    Traced.pure, Traced.outcome_emit, Traced.outcome_inside, Traced.outcome_pure]
  cases (inner.walk setup (depth + 1) given).outcome with
  | error stop => rfl
  | ok t' =>
    simp only [Except.mapError, Walk.collect, if_pos h.outputs.symm]
    cases hm : t'.readAll inner.outputs with
    | error fault => rfl
    | ok made =>
      have hlen : made.length = outer.outputs.length :=
        (Table.length_of_readAll hm).trans h.outputs.symm
      obtain ⟨t₁, ht₁, hr₁⟩ := hfill made hlen
      have hstore : (Walk.store ⟨label.op, label.name⟩ outer.outputs made t).outcome = .ok t₁ :=
        Walk.store_ok_iff.2 ⟨Nat.le_of_eq hlen, ht₁⟩
      simp only [Traced.ofFault, Traced.pure, hstore, hr₁]

end

/-! ### Any number of layers -/

/-- Layers answer as the graph inside them, and put their labels around an error. -/
theorem Wrapped.outcome_answer {setup : Setup} {labels : List Label} {w s : Graph}
    (h : Wrapped setup.options labels w s) {given : List ValueInfo}
    (hl : given.length = s.inputs.length)
    (hx : ∀ x ∈ given, ∃ dims elem, x = .tensor dims elem) (depth : Nat) :
    (w.answer setup depth given).outcome
      = (s.answer setup (depth + labels.length) given).outcome.mapError
          (labels.foldr Stop.inside) := by
  induction h generalizing depth with
  | bare s => cases (s.answer setup depth given).outcome <;> simp_all [Except.mapError]
  | @layer label labels outer inner s hlayer hw ih =>
    rw [hlayer.outcome_answer (by rw [hlayer.inputs, hw.length_inputs, hl]) hx, ih hl]
    rw [List.length_cons, Nat.add_right_comm, Nat.add_assoc]
    cases (s.answer setup (depth + (labels.length + 1)) given).outcome <;> rfl

/-- A walk answers alike at every depth. -/
theorem Graph.outcome_answer (setup : Setup) (d d' : Nat) (g : Graph) (given : List ValueInfo) :
    (g.answer setup d given).outcome = (g.answer setup d' given).outcome := by
  simp only [Graph.answer, Traced.outcome_bind, Graph.outcome_walk setup d d' g given]

/-! ### Whole runs -/

/-- The outputs of a run are what the graph answers. -/
theorem Graph.outcome_infer_map (setup : Setup) (g : Graph) {inputs : List RuntimeInput}
    {given : List ValueInfo} (h : (Run.infos 0 inputs).outcome = .ok given) :
    (g.infer setup inputs).outcome.map (·.outputs) = (g.answer setup 0 given).outcome := by
  rw [Run.outcome_infer, Run.report, Graph.answer]
  simp only [Traced.outcome_bind, h, Except.bind]
  cases (g.walk setup 0 given).outcome with
  | error stop => rfl
  | ok t =>
    simp only [Traced.outcome_pure]
    cases (Traced.ofFault (t.readAll g.outputs)).outcome <;> rfl

/-- Tensors are taken as plain tensors. -/
theorem Run.exists_infos_of_tensors {inputs : List RuntimeInput}
    (h : ∀ input ∈ inputs, ∃ dims elem, input = .tensor dims elem) :
    ∃ given, (Run.infos 0 inputs).outcome = .ok given ∧ given.length = inputs.length ∧
      ∀ x ∈ given, ∃ dims elem, x = ValueInfo.tensor dims elem := by
  simp only [Run.infos_ok_iff]
  induction inputs with
  | nil => exact ⟨[], rfl, rfl, by simp⟩
  | cons input inputs ih =>
    obtain ⟨dims, elem, rfl⟩ := h input (by simp)
    obtain ⟨given, hg, hl, ht⟩ := ih fun i hi => h i (List.mem_cons_of_mem _ hi)
    refine ⟨.tensor dims (some elem) :: given, ?_, by rw [List.length_cons, hl]; rfl, ?_⟩
    · rw [List.map_cons, hg]; rfl
    · rintro x (_ | ⟨_, hx⟩)
      · exact ⟨dims, some elem, rfl⟩
      · exact ht x hx

/-- TRANSPARENT: on tensors a graph in layers runs as the graph alone. The outputs are the same, an
    error keeps its kind and has the layers in front of its path, and a fault is the same. -/
theorem Graph.infer_wrapped (setup : Setup) {labels : List Label} {w s : Graph}
    (h : Wrapped setup.options labels w s) (inputs : List RuntimeInput)
    (hl : inputs.length = s.inputs.length)
    (ht : ∀ input ∈ inputs, ∃ dims elem, input = .tensor dims elem) :
    match (s.infer setup inputs).outcome with
    | .ok r => ∃ r', (w.infer setup inputs).outcome = .ok r' ∧ r'.outputs = r.outputs
    | .error (.failed error) => ∃ error', (w.infer setup inputs).outcome = .error (.failed error') ∧
        error'.kind = error.kind ∧ error'.path = labels.map (·.name) ++ error.path
    | .error (.faulted fault) => (w.infer setup inputs).outcome = .error (.faulted fault) := by
  obtain ⟨given, hg, hlen, hx⟩ := Run.exists_infos_of_tensors ht
  have hs := Graph.outcome_infer_map setup s hg
  have hw := Graph.outcome_infer_map setup w hg
  rw [h.outcome_answer (by rw [hlen, hl]) hx,
    Graph.outcome_answer setup (0 + labels.length) 0, ← hs] at hw
  cases hso : (s.infer setup inputs).outcome with
  | ok r =>
    rw [hso] at hw
    cases hwo : (w.infer setup inputs).outcome with
    | error stop => rw [hwo] at hw; cases hw
    | ok r' =>
      rw [hwo] at hw
      exact ⟨r', rfl, Except.ok.inj hw⟩
  | error stop =>
    have hstop : (w.infer setup inputs).outcome = .error (labels.foldr Stop.inside stop) := by
      rw [hso] at hw
      cases hwo : (w.infer setup inputs).outcome with
      | error stop' => rw [hwo] at hw; exact congrArg _ (Except.error.inj hw)
      | ok r' => rw [hwo] at hw; cases hw
    cases stop with
    | failed error =>
      rw [Stop.foldr_inside_failed] at hstop
      exact ⟨_, hstop, InferenceError.kind_foldr_inside labels error,
        InferenceError.path_foldr_inside labels error⟩
    | faulted fault =>
      rw [Stop.foldr_inside_faulted] at hstop
      exact hstop

/-! ### An error below two layers -/

/-- A graph of one input and one output in a layer with a name. -/
def Graph.layered (op name : String) (inner : Graph) : Graph :=
  let g := (Graph.empty.withInput "x" ⟨0⟩).withNode op [⟨0⟩] (.fused inner) [⟨1⟩]
  ((g.nameLast? name).getD g).addOutput ⟨1⟩

theorem isLayer_layered {options : Options} {op name : String} {inner : Graph} (hb : inner.Built)
    (hi : inner.inputs.length = 1) (ho : inner.outputs.length = 1) (hm : options.marks op) :
    IsLayer options ⟨op, some name⟩ (Graph.layered op name inner) inner where
  built := .addOutput (.nameLast (.addFused (.addInput .empty "x" rfl) hb op [⟨0⟩] 1 rfl) rfl) ⟨1⟩
  nodes := rfl
  inputs := hi.symm
  outputs := ho.symm
  marked := hm

/-- A graph whose operator no book has. -/
def strangeGraph : Graph :=
  ((Graph.empty.withInput "x" ⟨0⟩).withNode "my::op" [⟨0⟩] (.plain Keyed.empty) [⟨1⟩]).addOutput ⟨1⟩

theorem built_strangeGraph : strangeGraph.Built :=
  .addOutput (.addOp (.addInput .empty "x" rfl) "my::op" [⟨0⟩] Keyed.empty 1 rfl) ⟨1⟩

theorem Graph.infer_wrapped_strangeGraph :
    ∃ error, ((Graph.layered "glow::FusionGroup" "outer"
        (Graph.layered "glow::FusionGroup2" "inner" strangeGraph)).infer ⟨.builtin, .default⟩
          [.tensor [2] .float]).outcome = .error (.failed error) ∧
      error.kind = .unsupportedOperator ∧ error.path = [some "outer", some "inner", none] := by
  have hinner : IsLayer .default ⟨"glow::FusionGroup2", some "inner"⟩ _ strangeGraph :=
    isLayer_layered built_strangeGraph rfl rfl rfl
  have houter : IsLayer .default ⟨"glow::FusionGroup", some "outer"⟩ _ _ :=
    isLayer_layered hinner.built rfl rfl rfl
  exact Graph.infer_wrapped ⟨.builtin, .default⟩ (.layer houter (.layer hinner (.bare strangeGraph)))
    [.tensor [2] .float] rfl (by simp)

end ShapeFlow
