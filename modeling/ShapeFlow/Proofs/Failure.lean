import ShapeFlow.Proofs.Descent
import ShapeFlow.Proofs.Layers

/-! Where a run fails. A failing run has come down through fused nodes, each of them reached after all
    nodes before it were worked out, to a graph in which something fails: the graph has another
    number of inputs than it was given, or one of its nodes fails, those before it being worked out.
    Its error is that failure, wrapped once for each fused node passed; so the path of names, the
    kind, the errors below and the message all tell of that one place, and no run has two. -/

namespace ShapeFlow

/-! ### Errors in layers -/

namespace InferenceError

/-- The node that reports the error itself. A wrapper only passes on what its graph reports, and no
    node reports what is wrong with inputs. -/
def label? : InferenceError → Option Label
  | unknownOperator node => some node
  | refused node _ _ => some node
  | tooManyOutputs node _ _ => some node
  | innerOutputs node _ _ => some node
  | unsupportedInput _ _ => none
  | inputCount _ _ => none
  | inside _ _ => none

/-- The refusal of a rule that the error is about. -/
def refusal? : InferenceError → Option RuleError
  | refused _ cause _ => some cause
  | _ => none

/-- The error is no wrapper. -/
def Bare (error : InferenceError) : Prop := ∀ node inner, error ≠ .inside node inner

theorem bare_of_label {error : InferenceError} {node : Label} (h : error.label? = some node) :
    error.Bare := by
  rintro node' inner rfl
  cases h

/-- What lies below an error. -/
inductive Cause where
  | wrapped (inner : InferenceError)
  | refusal (cause : RuleError)
  deriving DecidableEq, Repr

def Cause.message : Cause → String
  | .wrapped inner => inner.message
  | .refusal cause => cause.message

/-- All that lies below an error, the nearest first. -/
def causes : InferenceError → List Cause
  | refused _ cause _ => [.refusal cause]
  | inside _ inner => .wrapped inner :: inner.causes
  | _ => []

theorem sources_eq_map_causes (error : InferenceError) :
    error.sources = error.causes.map Cause.message := by
  induction error with
  | inside node inner ih => exact congrArg (inner.message :: ·) ih
  | _ => rfl

/-- Under an error that is no wrapper lies at most the refusal of a rule. -/
theorem Bare.causes {error : InferenceError} (h : error.Bare) :
    error.causes = error.refusal?.toList.map .refusal := by
  cases error with
  | inside node inner => exact absurd rfl (h node inner)
  | _ => rfl

/-- The path of an error that is no wrapper has the name of its node, if it has a node. -/
theorem Bare.path {error : InferenceError} (h : error.Bare) :
    error.path = [error.label?.bind (·.name)] := by
  cases error with
  | inside node inner => exact absurd rfl (h node inner)
  | _ => rfl

end InferenceError

/-- The operator stands in quotes, and behind it the name, if there is one. -/
theorem Label.text_eq (node : Label) :
    node.text = "\"" ++ node.op ++ "\"" ++ node.name.elim "" fun name => " (node \"" ++ name ++ "\")" := by
  obtain ⟨op, name⟩ := node
  cases name with
  | none => rw [text, Option.elim_none, String.append_empty]
  | some name =>
    have hopen : "\" (node \"" = "\"" ++ " (node \"" := rfl
    simp only [text, Option.elim_some, hopen, String.append_assoc]

namespace InferenceError

/-- Wrappers put their texts in front of the message, outermost first. -/
theorem message_foldr_inside (labels : List Label) (error : InferenceError) :
    (labels.foldr inside error).message
      = String.join (labels.map fun label =>
          "operator \"" ++ label.op ++ "\""
            ++ (label.name.elim "" fun name => " (node \"" ++ name ++ "\")")
            ++ " subgraph error: ")
        ++ error.message := by
  induction labels with
  | nil => rw [List.foldr_nil, List.map_nil, String.join_nil, String.empty_append]
  | cons label labels ih =>
    have hopen : "operator \"" = "operator " ++ "\"" := rfl
    rw [List.foldr_cons, message_inside, ih, List.map_cons, String.join_cons, Label.text_eq, hopen]
    simp only [String.append_assoc]

/-- Below a wrapped error lie the errors with one wrapper less each, and what lies below the last. -/
theorem causes_foldr_inside (labels : List Label) (error : InferenceError) :
    (labels.foldr inside error).causes
      = (labels.tails.tail.map fun below => .wrapped (below.foldr inside error)) ++ error.causes := by
  induction labels with
  | nil => rfl
  | cons label labels ih =>
    have htails : (label :: labels).tails.tail = labels :: labels.tails.tail := by
      cases labels <;> rfl
    rw [List.foldr_cons, causes, ih, htails]
    rfl

end InferenceError

/-! ### Visits that stop -/

section

variable {setup : Setup} {depth : Nat}

/-- A visit stops where its node stops on what it reads. -/
theorem Node.visit_error_of_make {n : Node} {t : Table} {given : List ValueInfo} {stop : Stop}
    (hr : t.readAll n.inputs = .ok given)
    (h : (n.body.make setup depth n.label n.outputs.length given).outcome = .error stop) :
    (n.visit setup depth t).outcome = .error stop := by
  rw [Node.visit_eq]
  exact Traced.bind_error_iff.2 (.inr ⟨given, Traced.ofFault_ok_iff.2 hr,
    Traced.bind_error_iff.2 (.inl h)⟩)

/-- The visit of a fused node stops where its graph does, and wraps the error. -/
theorem Node.visit_error_of_walk {n : Node} {t : Table} {inner : Graph}
    {given seeds : List ValueInfo} {stop : Stop} (hb : n.body = .fused inner)
    (hr : t.readAll n.inputs = .ok given)
    (hs : (Walk.seeds setup n.label given).outcome = .ok seeds)
    (h : (inner.walk setup (depth + 1) seeds).outcome = .error stop) :
    (n.visit setup depth t).outcome = .error (stop.inside n.label) := by
  refine Node.visit_error_of_make hr ?_
  rw [hb]
  refine Traced.bind_error_iff.2 (.inr ⟨seeds, hs, ?_⟩)
  rw [Traced.outcome_emit_bind]
  exact Traced.bind_error_iff.2 (.inl (Traced.inside_error_iff.2 ⟨stop, h, rfl⟩))

namespace Walk

theorem applyRule_failed {node : Label} {attrs : Attributes} {count : Nat}
    {given : List ValueInfo} {error : InferenceError}
    (h : (applyRule setup node attrs count given).outcome = .error (.failed error)) :
    error = .unknownOperator node ∨ ∃ cause, error = .refused node cause given := by
  rw [applyRule] at h
  split at h
  · cases h
    exact .inl rfl
  · split at h
    · cases h
    · cases h
      exact .inr ⟨_, rfl⟩
    · cases h

theorem label_of_applyRule {node : Label} {attrs : Attributes} {count : Nat}
    {given : List ValueInfo} {error : InferenceError}
    (h : (applyRule setup node attrs count given).outcome = .error (.failed error)) :
    error.label? = some node := by
  obtain rfl | ⟨cause, rfl⟩ := applyRule_failed h <;> rfl

theorem seeds_failed {node : Label} {given : List ValueInfo} {error : InferenceError}
    (h : (seeds setup node given).outcome = .error (.failed error)) :
    ∃ cause, error = .refused node cause given := by
  rw [seeds] at h
  split at h
  · split at h
    · cases h
    · cases h
      exact ⟨_, rfl⟩
    · cases h
  · cases h

theorem label_of_seeds {node : Label} {given : List ValueInfo} {error : InferenceError}
    (h : (seeds setup node given).outcome = .error (.failed error)) :
    error.label? = some node := by
  obtain ⟨cause, rfl⟩ := seeds_failed h
  rfl

theorem collect_failed {node : Label} {asked : List Wire} {count : Nat} {t : Table}
    {error : InferenceError} (h : (collect node asked count t).outcome = .error (.failed error)) :
    error = .innerOutputs node asked.length count := by
  rw [collect] at h
  split at h
  · obtain ⟨_, _, he⟩ := Traced.ofFault_error_iff.1 h
    cases he
  · cases h
    rfl

theorem label_of_collect {node : Label} {asked : List Wire} {count : Nat} {t : Table}
    {error : InferenceError} (h : (collect node asked count t).outcome = .error (.failed error)) :
    error.label? = some node := by
  rw [collect_failed h, InferenceError.label?]

theorem store_failed {node : Label} {outputs : List Wire} {made : List ValueInfo} {t : Table}
    {error : InferenceError}
    (h : (store node outputs made t).outcome = .error (.failed error)) :
    outputs.length < made.length ∧
      error = .tooManyOutputs node made.length outputs.length := by
  rw [store] at h
  split at h
  · next hl =>
    cases h
    exact ⟨hl, rfl⟩
  · obtain ⟨_, _, he⟩ := Traced.ofFault_error_iff.1 h
    cases he

theorem label_of_store {node : Label} {outputs : List Wire} {made : List ValueInfo} {t : Table}
    {error : InferenceError}
    (h : (store node outputs made t).outcome = .error (.failed error)) :
    error.label? = some node := by
  rw [(store_failed h).2, InferenceError.label?]

theorem start_failed_iff {count : Nat} {inputs : List Wire} {given : List ValueInfo}
    {error : InferenceError} :
    (start count inputs given).outcome = .error (.failed error) ↔
      given.length ≠ inputs.length ∧ error = .inputCount inputs.length given.length := by
  rw [start]
  split
  · next hl =>
    simp only [hl, ne_eq, not_true_eq_false, false_and, iff_false]
    intro h
    obtain ⟨_, _, he⟩ := Traced.ofFault_error_iff.1 h
    cases he
  · next hl =>
    simp [hl, eq_comm]

end Walk

end

/-- What fails without a wrapper fails over a rule, over a value that is read, or over the outputs of a
    graph. -/
theorem Body.make_failed {setup : Setup} {depth count : Nat} {node : Label} {body : Body}
    {given : List ValueInfo} {error : InferenceError}
    (h : (body.make setup depth node count given).outcome = .error (.failed error))
    (hb : error.Bare) :
    error = .unknownOperator node ∨ (∃ cause, error = .refused node cause given) ∨
      ∃ declared, error = .innerOutputs node declared count := by
  cases body with
  | plain attrs =>
    rcases Walk.applyRule_failed h with he | he
    · exact .inl he
    · exact .inr (.inl he)
  | fused inner =>
    rcases Traced.bind_error_iff.1 h with h | ⟨seeds, -, h⟩
    · exact .inr (.inl (Walk.seeds_failed h))
    rw [Traced.outcome_emit_bind] at h
    rcases Traced.bind_error_iff.1 h with h | ⟨t, -, h⟩
    · -- what fails inside comes out wrapped
      obtain ⟨stop, -, he⟩ := Traced.inside_error_iff.1 h
      cases stop with
      | failed last => exact absurd (Stop.failed.inj he) (hb node last)
      | faulted fault => cases he
    · exact .inr (.inr ⟨_, Walk.collect_failed h⟩)

/-- A visit fails over what its node makes of the values read, or because that is too much. -/
theorem Node.visit_failed {setup : Setup} {depth : Nat} {n : Node} {t : Table}
    {error : InferenceError} (h : (n.visit setup depth t).outcome = .error (.failed error)) :
    ∃ given, t.readAll n.inputs = .ok given ∧
      ((n.body.make setup depth n.label n.outputs.length given).outcome
          = .error (.failed error) ∨
        ∃ made, (n.body.make setup depth n.label n.outputs.length given).outcome = .ok made ∧
          n.outputs.length < made.length ∧
          error = .tooManyOutputs n.label made.length n.outputs.length) := by
  rw [Node.visit_eq] at h
  rcases Traced.bind_error_iff.1 h with h | ⟨given, hg, h⟩
  · obtain ⟨_, _, he⟩ := Traced.ofFault_error_iff.1 h
    cases he
  refine ⟨given, Traced.ofFault_ok_iff.1 hg, ?_⟩
  rcases Traced.bind_error_iff.1 h with h | ⟨made, hm, h⟩
  · exact .inl h
  · exact .inr ⟨made, hm, Walk.store_failed h⟩

/-- A visit that fails without a wrapper reports its own node. -/
theorem Node.label_of_visit {setup : Setup} {depth : Nat} {n : Node} {t : Table}
    {error : InferenceError} (h : (n.visit setup depth t).outcome = .error (.failed error))
    (hb : error.Bare) : error.label? = some n.label := by
  obtain ⟨given, -, h | ⟨made, -, -, rfl⟩⟩ := Node.visit_failed h
  · obtain rfl | ⟨cause, rfl⟩ | ⟨declared, rfl⟩ := Body.make_failed h hb <;> rfl
  · rfl

/-! ### The place of a failure -/

/-- A place of a run: a run-time input, the inputs of a graph as a whole, a node by its position, or
    a place in the graph that such a node holds. -/
inductive Site where
  | input (index : Nat)
  | count
  | node (position : Nat)
  | inside (position : Nat) (site : Site)
  deriving DecidableEq, Repr

namespace Call

/-- The walk of the first call comes to the fused node at a position, all nodes before it being
    worked out, and enters the second call. -/
inductive Below (setup : Setup) (c : Call) : Nat → Label → Call → Prop where
  | intro {done rest : List Node} {n : Node} {t : Table} {inner : Graph}
      {given seeds : List ValueInfo} (hat : c.At setup done n rest t)
      (hb : n.body = .fused inner) (hr : t.readAll n.inputs = .ok given)
      (hs : (Walk.seeds setup n.label given).outcome = .ok seeds) :
      Below setup c done.length n.label ⟨c.depth + 1, inner, seeds⟩

/-- The walk of a call fails at a site with an error of its own, below the fused nodes with these
    labels. Either the inputs are not as many as the graph has, or, all nodes before it being worked
    out, a node fails and reports the error. -/
inductive FailsAt (setup : Setup) : Call → Site → List Label → InferenceError → Prop where
  | count {c : Call} (h : c.given.length ≠ c.graph.inputs.length) :
      FailsAt setup c .count [] (.inputCount c.graph.inputs.length c.given.length)
  | node {c : Call} {done rest : List Node} {n : Node} {t : Table} {error : InferenceError}
      (hat : c.At setup done n rest t)
      (hv : (n.visit setup c.depth t).outcome = .error (.failed error))
      (hl : error.label? = some n.label) : FailsAt setup c (.node done.length) [] error
  | inside {c c' : Call} {position : Nat} {label : Label} {site : Site} {labels : List Label}
      {error : InferenceError} (hbelow : c.Below setup position label c')
      (h : FailsAt setup c' site labels error) :
      FailsAt setup c (.inside position site) (label :: labels) error

variable {setup : Setup} {c : Call} {site : Site} {labels : List Label} {last : InferenceError}

theorem FailsAt.bare (h : FailsAt setup c site labels last) : last.Bare := by
  induction h with
  | count => rintro node inner ⟨⟩
  | node _ _ hl => exact InferenceError.bare_of_label hl
  | inside _ _ ih => exact ih

/-- A walk that comes to a node has been given as many values as it has inputs. -/
theorem At.length_given {done rest : List Node} {n : Node} {t : Table}
    (hat : c.At setup done n rest t) : c.given.length = c.graph.inputs.length := by
  obtain ⟨t₀, hs, -⟩ := hat.exists_start
  exact (Walk.start_ok_iff.1 hs).1

/-- A walk stops where one of its visits does. -/
theorem At.walk_error {done rest : List Node} {n : Node} {t : Table} {stop : Stop}
    (hat : c.At setup done n rest t) (hv : (n.visit setup c.depth t).outcome = .error stop) :
    (c.walk setup).outcome = .error stop := by
  obtain ⟨t₀, hs, hd⟩ := hat.exists_start
  rw [walk, Graph.walk_eq_walkNodes, hat.split]
  refine Traced.bind_error_iff.2 (.inr ⟨t₀, hs, ?_⟩)
  rw [walkNodes_append]
  exact Traced.bind_error_iff.2 (.inr ⟨t, hd, Traced.bind_error_iff.2 (.inl hv)⟩)

/-- A walk that fails at a site has the error of that site, wrapped on the way up. -/
theorem FailsAt.walk (h : FailsAt setup c site labels last) :
    (c.walk setup).outcome = .error (.failed (labels.foldr .inside last)) := by
  induction h with
  | @count c h =>
    rw [Call.walk, Graph.walk_eq_walkNodes]
    exact Traced.bind_error_iff.2 (.inl (Walk.start_failed_iff.2 ⟨h, rfl⟩))
  | node hat hv => exact hat.walk_error hv
  | inside hbelow _ ih =>
    obtain ⟨hat, hb, hr, hs⟩ := hbelow
    exact hat.walk_error (Node.visit_error_of_walk hb hr hs ih)

/-- No walk comes past a node whose visit stops. -/
theorem At.not_past {done rest rest' after : List Node} {n n' : Node} {t t' : Table} {stop : Stop}
    (hat : c.At setup done n rest t) (hv : (n.visit setup c.depth t).outcome = .error stop)
    (hat' : c.At setup (done ++ n :: after) n' rest' t') : False := by
  obtain ⟨t₀, hs, hd⟩ := hat.exists_start
  obtain ⟨t₁, hs', hd'⟩ := hat'.exists_start
  obtain rfl := Except.ok.inj (hs.symm.trans hs')
  obtain ⟨t₂, hd₂, hrest⟩ := walkNodes_append_ok_iff.1 hd'
  obtain rfl := Except.ok.inj (hd.symm.trans hd₂)
  obtain ⟨t₃, hv', -⟩ := walkNodes_cons_ok_iff.1 hrest
  rw [hv] at hv'
  cases hv'

/-- A walk comes to one node at most whose visit stops. -/
theorem At.unique {done done' rest rest' : List Node} {n n' : Node} {t t' : Table}
    {stop stop' : Stop} (hat : c.At setup done n rest t)
    (hv : (n.visit setup c.depth t).outcome = .error stop) (hat' : c.At setup done' n' rest' t')
    (hv' : (n'.visit setup c.depth t').outcome = .error stop') :
    done = done' ∧ n = n' ∧ t = t' := by
  have hsplit := hat.split.symm.trans hat'.split
  have hdone : done = done' := by
    rcases List.append_eq_append_iff.1 hsplit with ⟨as, rfl, has⟩ | ⟨as, rfl, has⟩
    · cases as with
      | nil => rw [List.append_nil]
      | cons m as =>
        obtain rfl := (List.cons.inj has).1
        exact (hat.not_past hv hat').elim
    · cases as with
      | nil => rw [List.append_nil]
      | cons m as =>
        obtain rfl := (List.cons.inj has).1
        exact (hat'.not_past hv' hat).elim
  subst hdone
  exact ⟨rfl, (List.cons.inj (List.append_cancel_left hsplit)).1,
    Except.ok.inj (hat.past.symm.trans hat'.past)⟩

/-- A walk fails at one site at most. -/
theorem FailsAt.unique {site' : Site} {labels' : List Label} {last' : InferenceError}
    (h : FailsAt setup c site labels last) (h' : FailsAt setup c site' labels' last') :
    site = site' ∧ labels = labels' ∧ last = last' := by
  induction h generalizing site' labels' last' with
  | count h =>
    cases h' with
    | count => exact ⟨rfl, rfl, rfl⟩
    | node hat => exact absurd hat.length_given h
    | inside hbelow =>
      obtain ⟨hat, -, -, -⟩ := hbelow
      exact absurd hat.length_given h
  | node hat hv hl =>
    cases h' with
    | count h => exact absurd hat.length_given h
    | node hat' hv' =>
      obtain ⟨rfl, rfl, rfl⟩ := hat.unique hv hat' hv'
      obtain rfl := Stop.failed.inj (Except.error.inj (hv.symm.trans hv'))
      exact ⟨rfl, rfl, rfl⟩
    | inside hbelow h' =>
      obtain ⟨hat', hb, hr, hs⟩ := hbelow
      have hv' := Node.visit_error_of_walk hb hr hs h'.walk
      obtain ⟨rfl, rfl, rfl⟩ := hat.unique hv hat' hv'
      -- a node that fails on its own fails without a wrapper
      have hsame := Stop.failed.inj (Except.error.inj (hv.symm.trans hv'))
      exact absurd hsame (InferenceError.bare_of_label hl _ _)
  | inside hbelow h ih =>
    obtain ⟨hat, hb, hr, hs⟩ := hbelow
    have hv := Node.visit_error_of_walk hb hr hs h.walk
    cases h' with
    | count h => exact absurd hat.length_given h
    | node hat' hv' hl =>
      obtain ⟨rfl, rfl, rfl⟩ := hat'.unique hv' hat hv
      have hsame := Stop.failed.inj (Except.error.inj (hv'.symm.trans hv))
      exact absurd hsame (InferenceError.bare_of_label hl _ _)
    | inside hbelow' h' =>
      obtain ⟨hat', hb', hr', hs'⟩ := hbelow'
      have hv' := Node.visit_error_of_walk hb' hr' hs' h'.walk
      obtain ⟨rfl, rfl, rfl⟩ := hat.unique hv hat' hv'
      obtain rfl := Body.fused.inj (hb.symm.trans hb')
      obtain rfl := Except.ok.inj (hr.symm.trans hr')
      obtain rfl := Except.ok.inj (hs.symm.trans hs')
      obtain ⟨rfl, rfl, rfl⟩ := ih h'
      exact ⟨rfl, rfl, rfl⟩

/-- A walk that fails at a place of its own graph fails there over a count or over a node. -/
theorem Stops.failsAt {error : InferenceError} (h : c.Stops setup (.failed error)) :
    ∃ site, FailsAt setup c site [] error := by
  cases h with
  | start h =>
    obtain ⟨hl, rfl⟩ := Walk.start_failed_iff.1 h
    exact ⟨_, .count hl⟩
  | rule hat hb hr h =>
    exact ⟨_, .node hat (Node.visit_error_of_make hr (hb ▸ h)) (Walk.label_of_applyRule h)⟩
  | seeds hat hb hr h =>
    refine ⟨_, .node hat (Node.visit_error_of_make hr ?_) (Walk.label_of_seeds h)⟩
    rw [hb]
    exact Traced.bind_error_iff.2 (.inl h)
  | collect hat hb hr hs hw h =>
    refine ⟨_, .node hat (Node.visit_error_of_make hr ?_) (Walk.label_of_collect h)⟩
    rw [hb]
    refine Traced.bind_error_iff.2 (.inr ⟨_, hs, ?_⟩)
    rw [Traced.outcome_emit_bind]
    exact Traced.bind_error_iff.2 (.inr ⟨_, Traced.outcome_inside_eq_ok_iff.2 hw, h⟩)
  | store hat hr hm h =>
    refine ⟨_, .node hat ?_ (Walk.label_of_store h)⟩
    rw [Node.visit_eq]
    exact Traced.bind_error_iff.2 (.inr ⟨_, Traced.ofFault_ok_iff.2 hr,
      Traced.bind_error_iff.2 (.inr ⟨_, hm, h⟩)⟩)

/-- What fails in a call that is entered fails at a site below. -/
theorem Enters.failsAt {c' : Call} (he : c.Enters setup labels c') {error : InferenceError}
    (h : FailsAt setup c' site [] error) : ∃ site, FailsAt setup c site labels error := by
  induction he with
  | self c => exact ⟨site, h⟩
  | inside hat hb hr hs _ ih =>
    obtain ⟨below, hbelow⟩ := ih h
    exact ⟨_, .inside ⟨hat, hb, hr, hs⟩ hbelow⟩

/-- A walk fails exactly when it fails at a site. -/
theorem walk_failed_iff {error : InferenceError} :
    (c.walk setup).outcome = .error (.failed error) ↔
      ∃ site labels last, FailsAt setup c site labels last ∧
        error = labels.foldr .inside last := by
  constructor
  · intro h
    obtain ⟨labels, c', stop, he, hs, hstop⟩ := exists_stops h
    cases stop with
    | faulted fault => rw [Stop.foldr_inside_faulted] at hstop; cases hstop
    | failed last =>
      rw [Stop.foldr_inside_failed] at hstop
      obtain ⟨site, hf⟩ := hs.failsAt
      obtain ⟨site', hf'⟩ := he.failsAt hf
      exact ⟨site', labels, last, hf', Stop.failed.inj hstop⟩
  · rintro ⟨site, labels, last, h, rfl⟩
    exact h.walk

end Call

namespace Run

/-- A run fails at a site with an error of its own, below the fused nodes with these labels: over the
    first input that is not taken, or in its walk. -/
inductive FailsAt (setup : Setup) (g : Graph) :
    List RuntimeInput → Site → List Label → InferenceError → Prop where
  | input {taken rest : List RuntimeInput} {input : RuntimeInput}
      (ht : ∀ i ∈ taken, i.info?.isSome) (hn : input.info? = none) :
      FailsAt setup g (taken ++ input :: rest) (.input taken.length) []
        (.unsupportedInput taken.length input.kind)
  | walk {inputs : List RuntimeInput} {given : List ValueInfo} {site : Site} {labels : List Label}
      {last : InferenceError} (hg : (infos 0 inputs).outcome = .ok given)
      (h : Call.FailsAt setup ⟨0, g, given⟩ site labels last) :
      FailsAt setup g inputs site labels last

variable {setup : Setup} {g : Graph} {inputs : List RuntimeInput} {site site' : Site}
  {labels labels' : List Label} {last last' : InferenceError}

theorem FailsAt.bare (h : FailsAt setup g inputs site labels last) : last.Bare := by
  cases h with
  | input => rintro node inner ⟨⟩
  | walk _ h => exact h.bare

/-- A run fails over an input that is refused, or takes them all and fails in its walk. -/
theorem failsAt_iff :
    FailsAt setup g inputs site labels last ↔
      (∃ index kind, (infos 0 inputs).outcome = .error (.failed (.unsupportedInput index kind)) ∧
          site = .input index ∧ labels = [] ∧ last = .unsupportedInput index kind) ∨
        ∃ given, (infos 0 inputs).outcome = .ok given ∧
          Call.FailsAt setup ⟨0, g, given⟩ site labels last := by
  constructor
  · intro h
    cases h with
    | @input taken rest input ht hn =>
      refine .inl ⟨taken.length, input.kind, ?_, rfl, rfl, rfl⟩
      refine infos_error_iff.2 ⟨taken, input, rest, rfl, ht, hn, ?_⟩
      rw [Nat.zero_add]
    | walk hg h => exact .inr ⟨_, hg, h⟩
  · rintro (⟨index, kind, hi, rfl, rfl, rfl⟩ | ⟨given, hg, h⟩)
    · obtain ⟨taken, input, rest, rfl, ht, hn, he⟩ := infos_error_iff.1 hi
      rw [Nat.zero_add] at he
      cases he
      exact .input ht hn
    · exact .walk hg h

/-- UNIQUE: a run fails at one site at most. -/
theorem FailsAt.unique (h : FailsAt setup g inputs site labels last)
    (h' : FailsAt setup g inputs site' labels' last') :
    site = site' ∧ labels = labels' ∧ last = last' := by
  rcases failsAt_iff.1 h with ⟨i, kind, hi, rfl, rfl, rfl⟩ | ⟨given, hg, h⟩
  · rcases failsAt_iff.1 h' with ⟨i', kind', hi', rfl, rfl, rfl⟩ | ⟨given', hg', -⟩
    · cases hi.symm.trans hi'
      exact ⟨rfl, rfl, rfl⟩
    · cases hi.symm.trans hg'
  · rcases failsAt_iff.1 h' with ⟨i', kind', hi', -⟩ | ⟨given', hg', h'⟩
    · cases hg.symm.trans hi'
    · obtain rfl := Except.ok.inj (hg.symm.trans hg')
      exact h.unique h'

end Run

namespace Graph

variable {setup : Setup} {g : Graph} {inputs : List RuntimeInput} {error : InferenceError}

/-- A run fails exactly when it fails at a site. -/
theorem infer_failed_iff :
    (g.infer setup inputs).outcome = .error (.failed error) ↔
      ∃ site labels last, Run.FailsAt setup g inputs site labels last ∧
        error = labels.foldr .inside last := by
  rw [infer_error_iff]
  constructor
  · rintro (h | ⟨given, hg, h | ⟨t, fault, -, -, h⟩⟩)
    · obtain ⟨taken, input, rest, rfl, ht, hn, he⟩ := Run.infos_error_iff.1 h
      rw [Nat.zero_add] at he
      exact ⟨_, [], _, .input ht hn, Stop.failed.inj he⟩
    · obtain ⟨site, labels, last, hf, he⟩ := Call.walk_failed_iff (c := ⟨0, g, given⟩).1 h
      exact ⟨site, labels, last, .walk hg hf, he⟩
    · cases h
  · rintro ⟨site, labels, last, hf, rfl⟩
    rcases Run.failsAt_iff.1 hf with ⟨i, kind, hi, -, rfl, rfl⟩ | ⟨given, hg, h⟩
    · exact .inl hi
    · exact .inr ⟨given, hg, .inl h.walk⟩

/-- LOCATED: a run that fails does so at a site, and its error tells of that site in all four ways.
    The path has the names of the fused nodes passed and of the node that failed, if a node did; the
    kind is that of the failure; below the error lie the errors with one wrapper less each, and then
    the refusal of a rule if the failure is one; and the message begins with a text for each wrapper,
    outermost first, that has the operator of the fused node and its name, if it has one. -/
theorem infer_located (h : (g.infer setup inputs).outcome = .error (.failed error)) :
    ∃ site labels last, Run.FailsAt setup g inputs site labels last ∧
      error = labels.foldr .inside last ∧
      error.path = labels.map (·.name) ++ [last.label?.bind (·.name)] ∧
      error.kind = last.kind ∧
      error.sources = error.causes.map InferenceError.Cause.message ∧
      error.causes = (labels.tails.tail.map fun below => .wrapped (below.foldr .inside last))
        ++ last.refusal?.toList.map .refusal ∧
      error.message
        = String.join (labels.map fun label =>
            "operator \"" ++ label.op ++ "\""
              ++ (label.name.elim "" fun name => " (node \"" ++ name ++ "\")")
              ++ " subgraph error: ")
          ++ last.message := by
  obtain ⟨site, labels, last, hf, rfl⟩ := infer_failed_iff.1 h
  refine ⟨site, labels, last, hf, rfl, ?_, ?_, InferenceError.sources_eq_map_causes _, ?_, ?_⟩
  · rw [InferenceError.path_foldr_inside, hf.bare.path]
  · exact InferenceError.kind_foldr_inside labels last
  · rw [InferenceError.causes_foldr_inside, hf.bare.causes]
  · exact InferenceError.message_foldr_inside labels last

/-- Two fused nodes around an operator that no rule knows. -/
theorem infer_located_strangeGraph :
    ∃ error site,
      ((layered "glow::FusionGroup" "outer" (layered "glow::FusionGroup" "inner" strangeGraph)).infer
        ⟨.builtin, .default⟩ [.tensor [2] .float]).outcome = .error (.failed error) ∧
      Run.FailsAt ⟨.builtin, .default⟩
        (layered "glow::FusionGroup" "outer" (layered "glow::FusionGroup" "inner" strangeGraph))
        [.tensor [2] .float] site
        [⟨"glow::FusionGroup", some "outer"⟩, ⟨"glow::FusionGroup", some "inner"⟩]
        (.unknownOperator ⟨"my::op", none⟩) ∧
      error.path = [some "outer", some "inner", none] ∧
      error.kind = .unsupportedOperator ∧
      error.causes
        = [.wrapped (.inside ⟨"glow::FusionGroup", some "inner"⟩ (.unknownOperator ⟨"my::op", none⟩)),
          .wrapped (.unknownOperator ⟨"my::op", none⟩)] ∧
      error.sources
        = ["operator \"glow::FusionGroup\" (node \"inner\") subgraph error: "
            ++ "unsupported operator \"my::op\"",
          "unsupported operator \"my::op\""] ∧
      error.message
        = "operator \"glow::FusionGroup\" (node \"outer\") subgraph error: "
          ++ "operator \"glow::FusionGroup\" (node \"inner\") subgraph error: "
          ++ "unsupported operator \"my::op\"" := by
  have h : ((layered "glow::FusionGroup" "outer"
      (layered "glow::FusionGroup" "inner" strangeGraph)).infer ⟨.builtin, .default⟩
        [.tensor [2] .float]).outcome
      = .error (.failed (.inside ⟨"glow::FusionGroup", some "outer"⟩
        (.inside ⟨"glow::FusionGroup", some "inner"⟩ (.unknownOperator ⟨"my::op", none⟩)))) := rfl
  obtain ⟨site, labels, last, hf, he, hpath, hkind, hsources, hcauses, hmessage⟩ := infer_located h
  -- the error has two wrappers, and what it wraps is none
  rcases labels with _ | ⟨outer, _ | ⟨inner, _ | ⟨label, labels⟩⟩⟩ <;> cases he
  · exact absurd rfl (hf.bare _ _)
  · exact absurd rfl (hf.bare _ _)
  have hlast : (InferenceError.unknownOperator ⟨"my::op", none⟩).message
      = "unsupported operator \"my::op\"" := by
    rw [InferenceError.message_unknownOperator]
    rfl
  refine ⟨_, site, h, hf, hpath, hkind, hcauses, ?_, ?_⟩
  · rw [hsources, hcauses]
    show [InferenceError.message (.inside _ _), InferenceError.message (.unknownOperator _)] = _
    rw [InferenceError.message_inside, hlast]
    rfl
  · rw [hmessage, hlast]
    rfl

end Graph

end ShapeFlow
