import ShapeFlow.Proofs.Run
import Mathlib.Data.List.Forall2

/-! Two walks in step. Two tables are in step if they know of the same wires and what they know of a wire
    is related, as the wire has it. Reading and filling the same wires then does the same to both: it
    works out in both, with related values, or breaks the same promise in both. So if at each pair
    of nodes related values are made of related values, the tables stay in step to the end, or both
    walks stop at the same pair. Errors of the two walks are compared by a relation too. -/

namespace ShapeFlow

variable {R : Wire → ValueInfo → ValueInfo → Prop}
  {P : InferenceError → InferenceError → Prop}

/-- Related errors, or the same broken promise. -/
inductive Stop.Similar (P : InferenceError → InferenceError → Prop) : Stop → Stop → Prop where
  | failed {error error' : InferenceError} (h : P error error') :
      Similar P (.failed error) (.failed error')
  | faulted (fault : Fault) : Similar P (.faulted fault) (.faulted fault)

theorem Stop.Similar.refl (hP : ∀ error, P error error) (stop : Stop) : stop.Similar P stop := by
  cases stop with
  | failed error => exact .failed (hP error)
  | faulted fault => exact .faulted fault

/-- A computation that can only fault keeps its faults apart. -/
theorem Traced.similar_ofFault {α β : Type} {S : α → β → Prop} {x : Except Fault α}
    {y : Except Fault β} (h : Matches Eq S x y) :
    Matches (Stop.Similar P) S (ofFault x).outcome (ofFault y).outcome := by
  cases h with
  | ok h => exact .ok h
  | @error fault _ h => subst h; exact .error (.faulted fault)

/-- Computations that end alike do so inside of nodes too. -/
theorem Traced.similar_inside {α β : Type} {S : α → β → Prop} {node node' : Label}
    (hP : ∀ error error', P error error' → P (.inside node error) (.inside node' error'))
    {x : Traced α} {y : Traced β} (h : Matches (Stop.Similar P) S x.outcome y.outcome) :
    Matches (Stop.Similar P) S (x.inside node).outcome (y.inside node').outcome := by
  rw [outcome_inside, outcome_inside]
  refine h.mapError fun stop stop' hs => ?_
  cases hs with
  | failed h => exact .failed (hP _ _ h)
  | faulted fault => exact .faulted fault

/-- As many values on both sides, related where a wire is there for them. -/
inductive Aligned (R : Wire → ValueInfo → ValueInfo → Prop) :
    List Wire → List ValueInfo → List ValueInfo → Prop where
  | nil (ws : List Wire) : Aligned R ws [] []
  | cons {w : Wire} {ws : List Wire} {x x' : ValueInfo} {xs xs' : List ValueInfo}
      (h : R w x x') (hs : Aligned R ws xs xs') : Aligned R (w :: ws) (x :: xs) (x' :: xs')
  | spare {xs xs' : List ValueInfo} (h : xs.length = xs'.length) : Aligned R [] xs xs'

namespace Aligned

variable {ws : List Wire} {xs xs' : List ValueInfo}

theorem length_eq (h : Aligned R ws xs xs') : xs.length = xs'.length := by
  induction h with
  | nil => rfl
  | cons _ _ ih => exact congrArg (· + 1) ih
  | spare h => exact h

/-- Values are aligned with themselves. -/
theorem refl (hR : ∀ w x, R w x x) (ws : List Wire) (xs : List ValueInfo) : Aligned R ws xs xs := by
  induction ws generalizing xs with
  | nil => exact .spare rfl
  | cons w ws ih =>
    cases xs with
    | nil => exact .nil _
    | cons x xs => exact .cons (hR w x) (ih xs)

/-- Values are aligned along any wires at which their relation is as strong as asked. -/
theorem of_forall₂ {S : ValueInfo → ValueInfo → Prop} (h : List.Forall₂ S xs xs')
    (hS : ∀ w ∈ ws, ∀ x x', S x x' → R w x x') : Aligned R ws xs xs' := by
  induction h generalizing ws with
  | nil => exact .nil ws
  | cons hx h ih =>
    cases ws with
    | nil => exact .spare (congrArg (· + 1) h.length_eq)
    | cons w ws =>
      exact .cons (hS w (by simp) _ _ hx) (ih fun v hv => hS v (List.mem_cons_of_mem _ hv))

end Aligned

/-! ### Tables -/

/-- The tables know of the same wires, and what they know of each is related. -/
def Table.InStep (R : Wire → ValueInfo → ValueInfo → Prop) (t t' : Table) : Prop :=
  ∀ w, Option.Rel (R w) (t.get? w) (t'.get? w)

namespace Table.InStep

variable {t t' : Table}

theorem ofSize (n n' : Nat) : (Table.ofSize n).InStep R (Table.ofSize n') := by
  intro w
  rw [get?_ofSize, get?_ofSize]
  exact .none

theorem insert (h : t.InStep R t') {w : Wire} {x x' : ValueInfo} (hx : R w x x') :
    Matches Eq (InStep R) (t.insert w x) (t'.insert w x') := by
  have hw := h w
  cases hn : t.get? w with
  | some info =>
    rw [hn] at hw
    generalize hn' : t'.get? w = o at hw
    cases hw
    rw [Table.insert, Table.insert, hn, hn']
    exact .error rfl
  | none =>
    rw [hn] at hw
    generalize hn' : t'.get? w = o at hw
    cases hw
    have hi := insert_of_get?_none x hn
    have hi' := insert_of_get?_none x' hn'
    rw [hi, hi']
    refine .ok fun v => ?_
    rw [get?_insert hi, get?_insert hi']
    split
    · next he => exact he ▸ .some hx
    · exact h v

theorem insertAll (h : t.InStep R t') {ws : List Wire} {xs xs' : List ValueInfo}
    (hx : Aligned R ws xs xs') :
    Matches Eq (InStep R) (t.insertAll (ws.zip xs)) (t'.insertAll (ws.zip xs')) := by
  induction hx generalizing t t' with
  | nil ws =>
    rw [List.zip_nil_right]
    exact .ok h
  | cons hr _ ih => exact (h.insert hr).bind fun t₁ t₁' h₁ => ih h₁
  | spare => exact .ok h

/-- Wires that are read give values related as at one of them. -/
theorem readAll (h : t.InStep R t') (ws : List Wire) :
    Matches Eq (List.Forall₂ fun x x' => ∃ w ∈ ws, R w x x') (t.readAll ws) (t'.readAll ws) := by
  induction ws with
  | nil => exact .ok .nil
  | cons w ws ih =>
    have hread : Matches Eq (R w) (t.read w) (t'.read w) := by
      have hw := h w
      rw [Table.read, Table.read]
      generalize t.get? w = o, t'.get? w = o' at hw
      cases hw with
      | none => exact .error rfl
      | some hx => exact .ok hx
    rw [Table.readAll, Table.readAll, List.mapM_cons, List.mapM_cons]
    refine hread.bind fun x x' hx => ih.bind fun xs xs' hxs => .ok (.cons ⟨w, by simp, hx⟩ ?_)
    exact hxs.imp fun y y' h => h.imp fun v hv => hv.imp_left (List.mem_cons_of_mem w)

end Table.InStep

/-! ### Visits and walks -/

/-- Two nodes that read and make the same wires, and make related values of related values. -/
structure Node.InStep (setup : Setup) (depth : Nat)
    (P : InferenceError → InferenceError → Prop) (R : Wire → ValueInfo → ValueInfo → Prop)
    (n n' : Node) : Prop where
  inputs : n.inputs = n'.inputs
  outputs : n.outputs = n'.outputs
  make : ∀ given given', List.Forall₂ (fun x x' => ∃ w ∈ n.inputs, R w x x') given given' →
    Matches (Stop.Similar P) (Aligned R n.outputs)
      (n.body.make setup depth n.label n.outputs.length given).outcome
      (n'.body.make setup depth n'.label n'.outputs.length given').outcome
  store : ∀ produced available,
    P (.tooManyOutputs n.label produced available) (.tooManyOutputs n'.label produced available)

section

variable {setup : Setup} {depth : Nat}

/-- Walks start in step from aligned values. -/
theorem inStep_start (hP : ∀ a b, P (.inputCount a b) (.inputCount a b)) (count count' : Nat)
    {inputs : List Wire} {given given' : List ValueInfo} (h : Aligned R inputs given given') :
    Matches (Stop.Similar P) (Table.InStep R) (Walk.start count inputs given).outcome
      (Walk.start count' inputs given').outcome := by
  rw [Walk.start, Walk.start, ← h.length_eq]
  split
  · exact Traced.similar_ofFault ((Table.InStep.ofSize count count').insertAll h)
  · exact .error (.failed (hP _ _))

/-- Outcomes that halt for the same reasons stop their nodes alike. -/
theorem matches_ofHalt {α β : Type} {S : α → β → Prop} {node node' : Label}
    {given given' : List ValueInfo} {x : Outcome α} {y : Outcome β} (h : Matches Eq S x y)
    (hP : ∀ error, P (.refused node error given) (.refused node' error given')) :
    Matches (Stop.Similar P) S (x.mapError (Stop.ofHalt node given))
      (y.mapError (Stop.ofHalt node' given')) := by
  refine h.mapError fun halt halt' he => ?_
  subst he
  cases halt with
  | refused error => exact .failed (hP error)
  | faulted fault => exact .faulted fault

/-- Nodes of one operator apply its rule alike where the rule works out alike. -/
theorem inStep_applyRule {S : List ValueInfo → List ValueInfo → Prop} {node node' : Label}
    (hop : node.op = node'.op) {attrs attrs' : Attributes} {count : Nat}
    {given given' : List ValueInfo} (hunknown : P (.unknownOperator node) (.unknownOperator node'))
    (hrefused : ∀ error, P (.refused node error given) (.refused node' error given'))
    (h : ∀ rule, setup.book.get? node'.op = some rule →
      Matches Eq S (rule given ⟨node'.op, attrs, count, setup.options.endOffset⟩)
        (rule given' ⟨node'.op, attrs', count, setup.options.endOffset⟩)) :
    Matches (Stop.Similar P) S (Walk.applyRule setup node attrs count given).outcome
      (Walk.applyRule setup node' attrs' count given').outcome := by
  cases hrule : setup.book.get? node'.op with
  | none =>
    rw [Walk.applyRule, Walk.applyRule, hop, hrule]
    exact .error (.failed hunknown)
  | some rule =>
    rw [Walk.outcome_applyRule (hop ▸ hrule), Walk.outcome_applyRule hrule, hop]
    exact matches_ofHalt (h rule hrule) hrefused

/-- Fused nodes of one operator seed their graphs alike where the values read alike as tensors. -/
theorem inStep_seeds {S : List ValueInfo → List ValueInfo → Prop} {node node' : Label}
    (hop : node.op = node'.op) {given given' : List ValueInfo}
    (hrefused : ∀ error, P (.refused node error given) (.refused node' error given'))
    (h : Matches Eq S
      (given.mapM fun x => x.asTensor.map fun dims => ValueInfo.tensor dims x.elem)
      (given'.mapM fun x => x.asTensor.map fun dims => ValueInfo.tensor dims x.elem)) :
    Matches (Stop.Similar P) S (Walk.seeds setup node given).outcome
      (Walk.seeds setup node' given').outcome := by
  by_cases hm : setup.options.marks node'.op
  · rw [Walk.outcome_seeds (hop ▸ hm), Walk.outcome_seeds hm]
    exact matches_ofHalt h hrefused
  · rw [Walk.seeds, Walk.seeds, hop, if_neg hm, if_neg hm]
    exact .error (.faulted _)

/-- Fused graphs whose tables are in step hand out related values. -/
theorem inStep_collect {node node' : Label} {asked : List Wire} {count : Nat}
    (hP : P (.innerOutputs node asked.length count) (.innerOutputs node' asked.length count))
    {t t' : Table} (ht : t.InStep R t') :
    Matches (Stop.Similar P) (List.Forall₂ fun x x' => ∃ w ∈ asked, R w x x')
      (Walk.collect node asked count t).outcome (Walk.collect node' asked count t').outcome := by
  rw [Walk.collect, Walk.collect]
  split
  · exact Traced.similar_ofFault (ht.readAll asked)
  · exact .error (.failed hP)

/-- A visit keeps tables in step. -/
theorem Node.InStep.visit {n n' : Node} (h : n.InStep setup depth P R n') {t t' : Table}
    (ht : t.InStep R t') :
    Matches (Stop.Similar P) (Table.InStep R) (n.visit setup depth t).outcome
      (n'.visit setup depth t').outcome := by
  rw [Node.visit_eq, Node.visit_eq, ← h.inputs]
  refine Traced.matches_bind (Traced.similar_ofFault (ht.readAll n.inputs)) ?_
  intro given given' hg
  refine Traced.matches_bind (h.make given given' hg) fun made made' hm => ?_
  rw [Walk.store, Walk.store, ← h.outputs, ← hm.length_eq]
  split
  · exact .error (.failed (h.store _ _))
  · exact Traced.similar_ofFault (ht.insertAll hm)

/-- Visits keep tables in step. -/
theorem inStep_walkNodes {nodes nodes' : List Node}
    (hn : List.Forall₂ (Node.InStep setup depth P R) nodes nodes') {t t' : Table}
    (ht : t.InStep R t') :
    Matches (Stop.Similar P) (Table.InStep R) (walkNodes setup depth nodes t).outcome
      (walkNodes setup depth nodes' t').outcome := by
  induction hn generalizing t t' with
  | nil => exact .ok ht
  | cons h _ ih => exact Traced.matches_bind (h.visit ht) fun t₁ t₁' h₁ => ih h₁

/-- Graphs with the same inputs and nodes in step are walked in step. -/
theorem inStep_walk (hP : ∀ a b, P (.inputCount a b) (.inputCount a b)) {g g' : Graph}
    (hi : g.inputs = g'.inputs)
    (hn : List.Forall₂ (Node.InStep setup depth P R) g.nodes g'.nodes)
    {given given' : List ValueInfo} (h : Aligned R g.inputs given given') :
    Matches (Stop.Similar P) (Table.InStep R) (g.walk setup depth given).outcome
      (g'.walk setup depth given').outcome := by
  rw [Graph.walk_eq_walkNodes, Graph.walk_eq_walkNodes, ← hi]
  exact Traced.matches_bind (inStep_start hP _ _ h) fun t t' ht => inStep_walkNodes hn ht

end

/-! ### Whole runs -/

/-- Two runs that end alike both succeed, both fail or break the same promise. -/
theorem Matches.cases_similar {α β : Type} {S : α → β → Prop} {x : Except Stop α}
    {y : Except Stop β} (h : Matches (Stop.Similar P) S x y) :
    (∃ a b, x = .ok a ∧ y = .ok b ∧ S a b) ∨
      (∃ error error', x = .error (.failed error) ∧ y = .error (.failed error') ∧
        P error error') ∨
      ∃ fault, x = .error (.faulted fault) ∧ y = .error (.faulted fault) := by
  cases h with
  | ok h => exact .inl ⟨_, _, rfl, rfl, h⟩
  | error h =>
    cases h with
    | failed h => exact .inr (.inl ⟨_, _, rfl, rfl, h⟩)
    | faulted fault => exact .inr (.inr ⟨fault, rfl, rfl⟩)

/-- The right side fails where the left one does, with a related error. -/
theorem Matches.similar_of_left {α β : Type} {S : α → β → Prop} {x : Except Stop α}
    {y : Except Stop β} {error : InferenceError} (h : Matches (Stop.Similar P) S x y)
    (hx : x = .error (.failed error)) : ∃ error', y = .error (.failed error') ∧ P error error' := by
  subst hx
  cases h with
  | error h =>
    cases h with
    | failed h => exact ⟨_, rfl, h⟩

namespace Run

/-- Inputs of the same kinds are taken together, as related values, or turned down together. -/
theorem matches_infos {S : ValueInfo → ValueInfo → Prop}
    (hP : ∀ index kind, P (.unsupportedInput index kind) (.unsupportedInput index kind))
    {inputs inputs' : List RuntimeInput}
    (h : List.Forall₂ (fun i i' => i.kind = i'.kind ∧ Option.Rel S i.info? i'.info?) inputs inputs')
    (index : Nat) :
    Matches (Stop.Similar P) (List.Forall₂ S) (infos index inputs).outcome
      (infos index inputs').outcome := by
  induction h generalizing index with
  | nil => exact .ok .nil
  | @cons i i' rest rest' hi _ ih =>
    obtain ⟨hkind, hinfo⟩ := hi
    rw [infos, infos, hkind]
    generalize i.info? = o, i'.info? = o' at hinfo
    cases hinfo with
    | none => exact .error (.failed (hP index i'.kind))
    | some hx =>
      exact Traced.matches_bind (ih (index + 1)) fun xs xs' hxs => .ok (.cons hx hxs)

/-- Runs that start in step and go on in step end in step. -/
theorem inStep_infer {setup : Setup} {g g' : Graph} {inputs inputs' : List RuntimeInput}
    (hP : ∀ a b, P (.inputCount a b) (.inputCount a b))
    (hinfos : Matches (Stop.Similar P) (Aligned R g.inputs) (infos 0 inputs).outcome
      (infos 0 inputs').outcome)
    (hi : g.inputs = g'.inputs) (ho : g.outputs = g'.outputs)
    (hn : List.Forall₂ (Node.InStep setup 0 P R) g.nodes g'.nodes) :
    Matches (Stop.Similar P) (fun r r' => r.table.InStep R r'.table ∧
        List.Forall₂ (fun x x' => ∃ w ∈ g.outputs, R w x x') r.outputs r'.outputs)
      (g.infer setup inputs).outcome (g'.infer setup inputs').outcome := by
  rw [outcome_infer, outcome_infer, report, report, ← ho]
  refine Traced.matches_bind hinfos fun given given' hg => ?_
  refine Traced.matches_bind (inStep_walk hP hi hn hg) fun t t' ht => ?_
  refine Traced.matches_bind (Traced.similar_ofFault (ht.readAll g.outputs)) fun xs xs' hx => ?_
  exact .ok ⟨ht, hx⟩

end Run

end ShapeFlow
