import ShapeFlow.Inference.Walk
import ShapeFlow.Proofs.Built
import ShapeFlow.Proofs.Table
import ShapeFlow.Proofs.Traced

/-! What a walk does to the table. A visit that finishes has read the wires of its node, made values
    of them and filled the first outputs of the node with these, one for each value; a walk that
    finishes is a row of such visits. So tables only ever learn: a wire that is filled keeps its
    value, and a wire that no node makes stays as it was. How a walk ends does not depend on how
    many graphs lie around it. -/

namespace ShapeFlow

/-- How a node stops on what it has read, for a reason to halt. -/
def Stop.ofHalt (node : Label) (given : List ValueInfo) : Halt → Stop
  | .refused error => .failed (.refused node error given)
  | .faulted fault => .faulted fault

/-! ### Steps of a walk -/

namespace Walk

theorem start_ok_iff {count : Nat} {inputs : List Wire} {given : List ValueInfo} {t : Table} :
    (start count inputs given).outcome = .ok t ↔
      given.length = inputs.length ∧
        (Table.ofSize count).insertAll (inputs.zip given) = .ok t := by
  rw [start]
  split <;> simp_all

theorem store_ok_iff {node : Label} {outputs : List Wire} {made : List ValueInfo} {t t' : Table} :
    (store node outputs made t).outcome = .ok t' ↔
      made.length ≤ outputs.length ∧ t.insertAll (outputs.zip made) = .ok t' := by
  rw [store]
  split
  · next h => simp [Nat.not_le.2 h]
  · next h => simp [Nat.le_of_not_lt h]

theorem collect_ok_iff {node : Label} {asked : List Wire} {count : Nat} {t : Table}
    {made : List ValueInfo} :
    (collect node asked count t).outcome = .ok made ↔
      asked.length = count ∧ t.readAll asked = .ok made := by
  rw [collect]
  split <;> simp_all

/-- Plain tensors start a fused graph as they are. -/
theorem seeds_of_tensors {setup : Setup} {node : Label} {given : List ValueInfo}
    (hm : setup.options.marks node.op) (ht : ∀ x ∈ given, ∃ dims elem, x = .tensor dims elem) :
    (seeds setup node given).outcome = .ok given := by
  have hmap : given.mapM (fun x => x.asTensor.map fun dims => ValueInfo.tensor dims x.elem)
      = .ok given := by
    induction given with
    | nil => rfl
    | cons x given ih =>
      obtain ⟨dims, elem, rfl⟩ := ht x (by simp)
      rw [List.mapM_cons, ih fun y hy => ht y (List.mem_cons_of_mem _ hy)]
      rfl
  rw [seeds, if_pos hm, hmap]
  rfl

/-- A rule that is there decides how its application ends. -/
theorem outcome_applyRule {setup : Setup} {node : Label} {attrs : Attributes} {count : Nat}
    {given : List ValueInfo} {rule : ShapeFn} (h : setup.book.get? node.op = some rule) :
    (applyRule setup node attrs count given).outcome
      = (rule given ⟨node.op, attrs, count, setup.options.endOffset⟩).mapError
        (Stop.ofHalt node given) := by
  rw [applyRule, h]
  dsimp only
  cases rule given ⟨node.op, attrs, count, setup.options.endOffset⟩ with
  | ok made => rfl
  | error halt => cases halt <;> rfl

/-- Where the mark is there, the readings of the values as tensors decide how seeding ends. -/
theorem outcome_seeds {setup : Setup} {node : Label} {given : List ValueInfo}
    (h : setup.options.marks node.op) :
    (seeds setup node given).outcome
      = Except.mapError (Stop.ofHalt node given)
        (given.mapM fun x => x.asTensor.map fun dims => ValueInfo.tensor dims x.elem) := by
  rw [seeds, if_pos h]
  cases given.mapM fun x : ValueInfo => x.asTensor.map fun dims => ValueInfo.tensor dims x.elem with
  | ok tensors => rfl
  | error halt => cases halt <;> rfl

/-- A rule that is there and accepts its operands. -/
theorem applyRule_ok_iff {setup : Setup} {node : Label} {attrs : Attributes} {count : Nat}
    {given made : List ValueInfo} :
    (applyRule setup node attrs count given).outcome = .ok made ↔
      ∃ rule, setup.book.get? node.op = some rule ∧
        rule given ⟨node.op, attrs, count, setup.options.endOffset⟩ = .ok made := by
  rw [applyRule]
  cases setup.book.get? node.op with
  | none => simp
  | some rule =>
    simp only [Option.some.injEq, exists_eq_left']
    cases rule given ⟨node.op, attrs, count, setup.options.endOffset⟩ with
    | ok made' => simp only [Traced.outcome_emit_bind, Traced.outcome_pure, Except.ok.injEq]
    | error halt => cases halt <;> simp

end Walk

/-- A finished visit has read, made and filled. -/
theorem Node.visit_ok_iff {setup : Setup} {depth : Nat} {n : Node} {t t' : Table} :
    (n.visit setup depth t).outcome = .ok t' ↔
      ∃ given made, t.readAll n.inputs = .ok given ∧
        (n.body.make setup depth n.label n.outputs.length given).outcome = .ok made ∧
        made.length ≤ n.outputs.length ∧ t.insertAll (n.outputs.zip made) = .ok t' := by
  simp only [Node.visit_eq, Traced.bind_ok_iff, Traced.ofFault_ok_iff, Walk.store_ok_iff]
  constructor
  · rintro ⟨given, hg, made, hm, hs⟩
    exact ⟨given, made, hg, hm, hs⟩
  · rintro ⟨given, made, hg, hm, hs⟩
    exact ⟨given, hg, made, hm, hs⟩

/-- What a fused node makes is what its graph is asked for, walked from plain tensors. -/
theorem Body.make_fused_ok_iff {setup : Setup} {depth count : Nat} {node : Label} {inner : Graph}
    {given made : List ValueInfo} :
    ((Body.fused inner).make setup depth node count given).outcome = .ok made ↔
      ∃ seeds t, (Walk.seeds setup node given).outcome = .ok seeds ∧
        (inner.walk setup (depth + 1) seeds).outcome = .ok t ∧
        inner.outputs.length = count ∧ t.readAll inner.outputs = .ok made := by
  simp only [Body.make, Traced.bind_ok_iff, Traced.outcome_emit_bind,
    Traced.outcome_inside_eq_ok_iff, Walk.collect_ok_iff]
  constructor
  · rintro ⟨seeds, hs, t, ht, hc⟩
    exact ⟨seeds, t, hs, ht, hc⟩
  · rintro ⟨seeds, t, hs, ht, hc⟩
    exact ⟨seeds, hs, t, ht, hc⟩

theorem walkNodes_cons_ok_iff {setup : Setup} {depth : Nat} {n : Node} {nodes : List Node}
    {t t' : Table} :
    (walkNodes setup depth (n :: nodes) t).outcome = .ok t' ↔
      ∃ t₁, (n.visit setup depth t).outcome = .ok t₁ ∧
        (walkNodes setup depth nodes t₁).outcome = .ok t' := Traced.bind_ok_iff

/-- Nodes one after the other are visited one after the other. -/
theorem walkNodes_append (setup : Setup) (depth : Nat) (as bs : List Node) (t : Table) :
    walkNodes setup depth (as ++ bs) t
      = walkNodes setup depth as t >>= walkNodes setup depth bs := by
  induction as generalizing t with
  | nil => exact (pure_bind t _).symm
  | cons n as ih =>
    simp only [List.cons_append, walkNodes, ih, bind_assoc]

theorem walkNodes_append_ok_iff {setup : Setup} {depth : Nat} {as bs : List Node} {t t' : Table} :
    (walkNodes setup depth (as ++ bs) t).outcome = .ok t' ↔
      ∃ t₁, (walkNodes setup depth as t).outcome = .ok t₁ ∧
        (walkNodes setup depth bs t₁).outcome = .ok t' := by
  rw [walkNodes_append, Traced.bind_ok_iff]

/-- A walk starts from the inputs and then visits the nodes. -/
theorem Graph.walk_eq_walkNodes (setup : Setup) (depth : Nat) (g : Graph) (given : List ValueInfo) :
    g.walk setup depth given
      = Walk.start g.valueCount g.inputs given >>= walkNodes setup depth g.nodes := by
  cases g
  rfl

theorem Graph.walk_ok_iff {setup : Setup} {depth : Nat} {g : Graph} {given : List ValueInfo}
    {t : Table} :
    (g.walk setup depth given).outcome = .ok t ↔
      ∃ t₀, (Walk.start g.valueCount g.inputs given).outcome = .ok t₀ ∧
        (walkNodes setup depth g.nodes t₀).outcome = .ok t := by
  rw [Graph.walk_eq_walkNodes, Traced.bind_ok_iff]

/-! ### Tables only learn -/

section

variable {setup : Setup} {depth : Nat}

theorem within_of_visit {n : Node} {t t' : Table}
    (h : (n.visit setup depth t).outcome = .ok t') : t.Within t' := by
  obtain ⟨given, made, -, -, -, hs⟩ := Node.visit_ok_iff.1 h
  exact Table.within_of_insertAll hs

theorem within_of_walkNodes {nodes : List Node} {t t' : Table}
    (h : (walkNodes setup depth nodes t).outcome = .ok t') : t.Within t' := by
  induction nodes generalizing t with
  | nil => obtain rfl := Except.ok.inj h; exact Table.Within.refl _
  | cons n nodes ih =>
    obtain ⟨t₁, h₁, h₂⟩ := walkNodes_cons_ok_iff.1 h
    exact (within_of_visit h₁).trans (ih h₂)

/-- A wire that a node does not make stays as it was. -/
theorem get?_visit {n : Node} {t t' : Table} (h : (n.visit setup depth t).outcome = .ok t')
    {w : Wire} (hw : w ∉ n.outputs) : t'.get? w = t.get? w := by
  obtain ⟨given, made, -, -, -, hs⟩ := Node.visit_ok_iff.1 h
  refine Table.get?_insertAll_of_not_mem hs fun hm => hw ?_
  rw [Table.map_fst_zip_eq_take] at hm
  exact List.mem_of_mem_take hm

/-- A wire that no node makes stays as it was. -/
theorem get?_walkNodes {nodes : List Node} {t t' : Table}
    (h : (walkNodes setup depth nodes t).outcome = .ok t') {w : Wire} (hw : w ∉ outputsOf nodes) :
    t'.get? w = t.get? w := by
  induction nodes generalizing t with
  | nil => obtain rfl := Except.ok.inj h; rfl
  | cons n nodes ih =>
    obtain ⟨t₁, h₁, h₂⟩ := walkNodes_cons_ok_iff.1 h
    rw [outputsOf_cons, List.mem_append, not_or] at hw
    rw [ih h₂ hw.2, get?_visit h₁ hw.1]

/-- A visit that makes wires below the number of slots keeps that number. -/
theorem size_visit {n : Node} {t t' : Table} (h : (n.visit setup depth t).outcome = .ok t')
    (hb : ∀ w ∈ n.outputs, w.index < t.slots.size) : t'.slots.size = t.slots.size := by
  obtain ⟨given, made, -, -, -, hs⟩ := Node.visit_ok_iff.1 h
  refine Table.size_insertAll hs fun w hw => ?_
  rw [Table.map_fst_zip_eq_take] at hw
  exact hb w (List.mem_of_mem_take hw)

theorem size_walkNodes {nodes : List Node} {t t' : Table}
    (h : (walkNodes setup depth nodes t).outcome = .ok t')
    (hb : ∀ w ∈ outputsOf nodes, w.index < t.slots.size) : t'.slots.size = t.slots.size := by
  induction nodes generalizing t with
  | nil => obtain rfl := Except.ok.inj h; rfl
  | cons n nodes ih =>
    obtain ⟨t₁, h₁, h₂⟩ := walkNodes_cons_ok_iff.1 h
    have hs := size_visit h₁ fun w hw => hb w (List.mem_append_left _ hw)
    rw [ih h₂ fun w hw => hs ▸ hb w (List.mem_append_right _ hw), hs]

end

/-- What is filled at the start are the inputs. -/
theorem isSome_start {count : Nat} {inputs : List Wire} {given : List ValueInfo} {t : Table}
    (h : (Walk.start count inputs given).outcome = .ok t) (w : Wire) :
    (t.get? w).isSome ↔ w ∈ inputs := by
  obtain ⟨hl, hs⟩ := Walk.start_ok_iff.1 h
  rw [Table.isSome_insertAll_zip hs, hl, List.take_length]
  simp

/-- A walk starts with each input at its wire. -/
theorem get?_start {count : Nat} {inputs : List Wire} {given : List ValueInfo} {t : Table}
    (h : (Walk.start count inputs given).outcome = .ok t) {i : Nat} {w : Wire}
    (hi : inputs[i]? = some w) : t.get? w = given[i]? := by
  obtain ⟨hl, hs⟩ := Walk.start_ok_iff.1 h
  have hat := congrArg (·[i]?) (Table.map_get?_insertAll_zip hs hl)
  simp only [List.getElem?_map, hi, Option.map_some] at hat
  cases hg : given[i]? with
  | none => rw [hg] at hat; cases hat
  | some info => rw [hg] at hat; exact Option.some.inj hat

theorem size_start {count : Nat} {inputs : List Wire} {given : List ValueInfo} {t : Table}
    (h : (Walk.start count inputs given).outcome = .ok t) (hb : ∀ w ∈ inputs, w.index < count) :
    t.slots.size = count := by
  obtain ⟨-, hs⟩ := Walk.start_ok_iff.1 h
  have hc : (Table.ofSize count).slots.size = count := Array.size_replicate
  rw [Table.size_insertAll hs fun w hw => ?_, hc]
  rw [Table.map_fst_zip_eq_take] at hw
  exact hc.symm ▸ hb w (List.mem_of_mem_take hw)

/-! ### How a walk ends does not depend on its depth -/

mutual

theorem Graph.outcome_walk (setup : Setup) (d d' : Nat) : ∀ (g : Graph) (given : List ValueInfo),
    (g.walk setup d given).outcome = (g.walk setup d' given).outcome
  | ⟨names, nodes, inputs, _⟩, given => by
    simp only [Graph.walk, Traced.outcome_bind]
    congr 1
    funext t
    exact outcome_walkNodes setup d d' nodes t

theorem outcome_walkNodes (setup : Setup) (d d' : Nat) : ∀ (nodes : List Node) (t : Table),
    (walkNodes setup d nodes t).outcome = (walkNodes setup d' nodes t).outcome
  | [], _ => rfl
  | n :: nodes, t => by
    simp only [walkNodes, Traced.outcome_bind]
    rw [Node.outcome_visit setup d d' n t]
    congr 1
    funext t'
    exact outcome_walkNodes setup d d' nodes t'

theorem Node.outcome_visit (setup : Setup) (d d' : Nat) : ∀ (n : Node) (t : Table),
    (n.visit setup d t).outcome = (n.visit setup d' t).outcome
  | ⟨op, name, inputs, outputs, body⟩, t => by
    simp only [Node.visit, Traced.outcome_bind]
    congr 1
    funext given
    rw [Body.outcome_make setup d d' ⟨op, name⟩ outputs.length body given]

theorem Body.outcome_make (setup : Setup) (d d' : Nat) (node : Label) (count : Nat) :
    ∀ (body : Body) (given : List ValueInfo),
      (body.make setup d node count given).outcome = (body.make setup d' node count given).outcome
  | .plain _, _ => rfl
  | .fused inner, given => by
    simp only [Body.make, Traced.outcome_bind, Traced.outcome_inside]
    congr 1
    funext seeds
    simp only [Traced.outcome_emit, Except.bind]
    rw [Graph.outcome_walk setup (d + 1) (d' + 1) inner seeds]

end

end ShapeFlow
