import ShapeFlow.Graph.Basic
import Mathlib.Data.List.Nodup
import Mathlib.Tactic.Common

/-! What the builder guarantees. Graphs come from nowhere else, so all of them are *built*: each is
    the empty graph after some steps, and every graph inside of a fused node was built before it.
    Since a step that makes wires takes the next free numbers, the wires made by a built graph (its
    inputs and the outputs of its nodes) are distinct and lie below the number of its values, and that
    is no more than there are wires. What nodes read and what the graph asks for is up to the caller,
    and nothing is said of it. -/

namespace ShapeFlow

/-- The wires that nodes make, in stored order. -/
def outputsOf (nodes : List Node) : List Wire := nodes.flatMap Node.outputs

theorem outputsOf_cons (n : Node) (nodes : List Node) :
    outputsOf (n :: nodes) = n.outputs ++ outputsOf nodes := rfl

theorem outputsOf_append (as bs : List Node) :
    outputsOf (as ++ bs) = outputsOf as ++ outputsOf bs := List.flatMap_append

theorem mem_outputsOf {nodes : List Node} {w : Wire} :
    w ∈ outputsOf nodes ↔ ∃ n ∈ nodes, w ∈ n.outputs := List.mem_flatMap

namespace Graph

/-- The graphs that the builder makes, as long as its steps do not fault. -/
inductive Built : Graph → Prop where
  | empty : Built .empty
  | addValue {g g' : Graph} {w : Wire} (h : Built g) (name : Option String)
      (hg : g.addValue name = .ok (g', w)) : Built g'
  | addInput {g g' : Graph} {w : Wire} (h : Built g) (name : String)
      (hg : g.addInput name = .ok (g', w)) : Built g'
  | addOutput {g : Graph} (h : Built g) (w : Wire) : Built (g.addOutput w)
  | addOp {g g' : Graph} {made : List Wire} (h : Built g) (op : String) (inputs : List Wire)
      (attrs : Attributes) (count : Nat) (hg : g.addOp op inputs attrs count = .ok (g', made)) :
      Built g'
  | addFused {g g' inner : Graph} {made : List Wire} (h : Built g) (hi : Built inner) (op : String)
      (inputs : List Wire) (count : Nat)
      (hg : g.addFused op inputs inner count = .ok (g', made)) : Built g'
  | nameLast {g g' : Graph} (h : Built g) {name : String} (hn : g.nameLast? name = some g') :
      Built g'

/-- The wires that a run of the graph may fill. -/
def made (g : Graph) : List Wire := g.inputs ++ outputsOf g.nodes

/-- The wires made are distinct and lie below the number of values. -/
structure Distinct (g : Graph) : Prop where
  nodup : g.made.Nodup
  lt_valueCount : ∀ w ∈ g.made, w.index < g.valueCount

/-! ### One step of the builder -/

theorem Distinct.withValue {g : Graph} (h : g.Distinct) (name : Option String) :
    (g.withValue name).Distinct where
  nodup := h.nodup
  lt_valueCount w hw := by
    rw [valueCount_withValue]
    exact Nat.lt_succ_of_lt (h.lt_valueCount w hw)

/-- The next free number is not taken. -/
theorem Distinct.not_mem {g : Graph} (h : g.Distinct) {n : Nat} (hn : g.valueCount ≤ n) :
    ⟨n⟩ ∉ g.made :=
  fun hm => absurd (h.lt_valueCount _ hm) (Nat.not_lt.2 hn)

theorem Distinct.withInput {g : Graph} (h : g.Distinct) (name : String) :
    (g.withInput name ⟨g.valueCount⟩).Distinct := by
  have hmade : (g.withInput name ⟨g.valueCount⟩).made
      = g.inputs ++ ⟨g.valueCount⟩ :: outputsOf g.nodes := by
    simp [Graph.made, Graph.withInput, Graph.withValue]
  refine ⟨?_, fun w hw => ?_⟩
  · rw [hmade, List.nodup_middle]
    exact List.nodup_cons.2 ⟨h.not_mem (Nat.le_refl _), h.nodup⟩
  · rw [hmade, List.mem_append, List.mem_cons] at hw
    rw [valueCount_withInput]
    rcases hw with hw | rfl | hw
    · exact Nat.lt_succ_of_lt (h.lt_valueCount w (List.mem_append_left _ hw))
    · exact Nat.lt_succ_self _
    · exact Nat.lt_succ_of_lt (h.lt_valueCount w (List.mem_append_right _ hw))

theorem Distinct.withNode {g : Graph} (h : g.Distinct) (op : String) (inputs : List Wire)
    (body : Body) (count : Nat) :
    (g.withNode op inputs body ((List.range' g.valueCount count).map Wire.mk)).Distinct := by
  generalize hmade : (List.range' g.valueCount count).map Wire.mk = made
  have hall : (g.withNode op inputs body made).made = g.made ++ made := by
    simp [Graph.made, Graph.withNode, outputsOf]
  have hlength : made.length = count := by
    rw [← hmade, List.length_map, List.length_range']
  have hbounds : ∀ w ∈ made, g.valueCount ≤ w.index ∧ w.index < g.valueCount + count := by
    rw [← hmade, List.forall_mem_map]
    exact fun n hn => List.mem_range'_1.1 hn
  refine ⟨?_, fun w hw => ?_⟩
  · rw [hall]
    refine h.nodup.append ?_ fun w hw hm => h.not_mem (hbounds w hm).1 hw
    have hnumbers : (List.range' g.valueCount count).Nodup := List.nodup_range'
    rw [← hmade]
    exact hnumbers.map fun i j hij => Wire.mk.inj hij
  · rw [hall, List.mem_append] at hw
    rw [valueCount_withNode, hlength]
    rcases hw with hw | hw
    · exact Nat.lt_add_right _ (h.lt_valueCount w hw)
    · exact (hbounds w hw).2

/-- Naming the last node changes one name. -/
theorem nameLast?_eq_some {g g' : Graph} {name : String} (h : g.nameLast? name = some g') :
    ∃ front last, g.nodes = front ++ [last] ∧
      g' = { g with nodes := front ++ [{ last with name := some name }] } := by
  rw [nameLast?] at h
  split at h
  · next last hl =>
    obtain ⟨front, hf⟩ := List.getLast?_eq_some_iff.1 hl
    refine ⟨front, last, hf, ?_⟩
    rw [← Option.some.inj h, hf, List.dropLast_concat]
  · cases h

theorem Distinct.nameLast {g g' : Graph} (h : g.Distinct) {name : String}
    (hn : g.nameLast? name = some g') : g'.Distinct := by
  obtain ⟨front, last, hg, rfl⟩ := nameLast?_eq_some hn
  have hmade : Graph.made { g with nodes := front ++ [{ last with name := some name }] }
      = g.made := by
    simp [Graph.made, hg, outputsOf]
  exact ⟨hmade ▸ h.nodup, fun w hw => h.lt_valueCount w (hmade ▸ hw)⟩

/-! ### Built graphs -/

/-- A node that is appended makes the next wires. -/
theorem eq_withNode_of_addNode {g g' : Graph} {op : String} {inputs made : List Wire} {body : Body}
    {count : Nat} (hg : g.addNode op inputs body count = .ok (g', made)) :
    g' = g.withNode op inputs body ((List.range' g.valueCount count).map Wire.mk) := by
  obtain ⟨⟨-, rfl⟩, rfl⟩ := addNode_ok_iff.1 hg
  rfl

/-- The last wire made is the one that has to fit. -/
theorem valueCount_le_of_addNode {g g' : Graph} {op : String} {inputs made : List Wire} {body : Body}
    {count : Nat} (hg : g.addNode op inputs body count = .ok (g', made))
    (h : g.valueCount ≤ Wire.limit) : g'.valueCount ≤ Wire.limit := by
  obtain ⟨⟨hroom, rfl⟩, rfl⟩ := addNode_ok_iff.1 hg
  rw [valueCount_withNode, List.length_map, List.length_range']
  cases count with
  | zero => exact h
  | succ count =>
    have hlast : g.valueCount + count ∈ List.range' g.valueCount (count + 1) :=
      List.mem_range'_1.2 ⟨Nat.le_add_right _ _, by omega⟩
    exact hroom _ hlast

/-- No wire is made twice. -/
theorem Built.distinct {g : Graph} (h : g.Built) : g.Distinct := by
  induction h with
  | empty => exact ⟨List.nodup_nil, fun w hw => by cases hw⟩
  | addValue _ name hg ih =>
    obtain ⟨-, rfl⟩ := addValue_ok_iff.1 hg
    exact ih.withValue name
  | addInput _ name hg ih =>
    obtain ⟨⟨-, rfl⟩, rfl⟩ := addInput_ok_iff.1 hg
    exact ih.withInput name
  | addOutput _ w ih => exact ⟨ih.nodup, ih.lt_valueCount⟩
  | addOp _ op inputs attrs count hg ih =>
    rw [eq_withNode_of_addNode hg]
    exact ih.withNode op inputs (.plain attrs) count
  | addFused _ _ op inputs count hg ih _ =>
    rw [eq_withNode_of_addNode hg]
    exact ih.withNode op inputs _ count
  | nameLast _ hn ih => exact ih.nameLast hn

/-- A built graph has no more values than there are wires. -/
theorem Built.valueCount_le {g : Graph} (h : g.Built) : g.valueCount ≤ Wire.limit := by
  induction h with
  | empty => exact Nat.zero_le _
  | addValue _ _ hg =>
    obtain ⟨⟨hroom, -⟩, rfl⟩ := addValue_ok_iff.1 hg
    rwa [valueCount_withValue]
  | addInput _ _ hg =>
    obtain ⟨⟨hroom, -⟩, rfl⟩ := addInput_ok_iff.1 hg
    rwa [valueCount_withInput]
  | addOutput _ _ ih => exact ih
  | addOp _ _ _ _ _ hg ih => exact valueCount_le_of_addNode hg ih
  | addFused _ _ _ _ _ hg ih => exact valueCount_le_of_addNode hg ih
  | nameLast _ hn ih =>
    obtain ⟨front, last, -, rfl⟩ := nameLast?_eq_some hn
    exact ih

/-- What a fused node of a built graph holds was built too. -/
theorem Built.inner {g : Graph} (h : g.Built) :
    ∀ n ∈ g.nodes, ∀ inner, n.body = .fused inner → inner.Built := by
  induction h with
  | empty => intro n hn; cases hn
  | addValue _ _ hg ih =>
    obtain ⟨-, rfl⟩ := addValue_ok_iff.1 hg
    exact ih
  | addInput _ _ hg ih =>
    obtain ⟨-, rfl⟩ := addInput_ok_iff.1 hg
    exact ih
  | addOutput _ _ ih => exact ih
  | addOp _ op inputs attrs count hg ih =>
    rw [eq_withNode_of_addNode hg]
    intro n hn inner hb
    rcases List.mem_append.1 hn with hn | hn
    · exact ih n hn inner hb
    · rw [List.mem_singleton.1 hn] at hb
      cases hb
  | addFused _ hi op inputs count hg ih _ =>
    rw [eq_withNode_of_addNode hg]
    intro n hn inner hb
    rcases List.mem_append.1 hn with hn | hn
    · exact ih n hn inner hb
    · rw [List.mem_singleton.1 hn] at hb
      cases hb
      exact hi
  | nameLast _ hn ih =>
    obtain ⟨front, last, hg, rfl⟩ := nameLast?_eq_some hn
    intro n hn inner hb
    rcases List.mem_append.1 hn with hn | hn
    · exact ih n (hg ▸ List.mem_append_left _ hn) inner hb
    · rw [List.mem_singleton.1 hn] at hb
      exact ih last (hg ▸ List.mem_append_right _ (List.mem_singleton_self _)) inner hb

/-! ### Graphs inside of graphs -/

/-- A graph holds itself and all that the graphs of its fused nodes hold. -/
inductive Holds : Graph → Graph → Prop where
  | self (g : Graph) : Holds g g
  | inside {g inner h : Graph} {n : Node} (hn : n ∈ g.nodes) (hb : n.body = .fused inner)
      (hh : Holds inner h) : Holds g h

theorem Built.of_holds {g h : Graph} (hg : g.Built) (hh : g.Holds h) : h.Built := by
  induction hh with
  | self => exact hg
  | inside hn hb _ ih => exact ih (hg.inner _ hn _ hb)

end Graph

mutual

/-- The nodes of the graph that a fused node holds, and of all graphs inside. -/
def Body.allNodes : Body → List Node
  | .plain _ => []
  | .fused inner => inner.allNodes
termination_by structural body => body

/-- A node and all nodes inside. -/
def Node.allNodes : Node → List Node
  | ⟨op, name, inputs, outputs, body⟩ => ⟨op, name, inputs, outputs, body⟩ :: body.allNodes
termination_by structural node => node

def allNodesOf : List Node → List Node
  | [] => []
  | node :: rest => node.allNodes ++ allNodesOf rest
termination_by structural nodes => nodes

/-- The nodes of a graph, each followed by the nodes inside. -/
def Graph.allNodes : Graph → List Node
  | ⟨_, nodes, _, _⟩ => allNodesOf nodes
termination_by structural graph => graph

end

mutual

theorem Body.mem_allNodes {n : Node} : ∀ body : Body,
    n ∈ body.allNodes ↔ ∃ inner h, body = .fused inner ∧ inner.Holds h ∧ n ∈ h.nodes
  | .plain _ => by simp [Body.allNodes]
  | .fused inner => by
    rw [Body.allNodes, Graph.mem_allNodes inner]
    constructor
    · rintro ⟨h, hh, hn⟩
      exact ⟨inner, h, rfl, hh, hn⟩
    · rintro ⟨_, h, hb, hh, hn⟩
      cases hb
      exact ⟨h, hh, hn⟩

theorem Node.mem_allNodes {n : Node} : ∀ m : Node,
    n ∈ m.allNodes ↔ n = m ∨ ∃ inner h, m.body = .fused inner ∧ inner.Holds h ∧ n ∈ h.nodes
  | ⟨_, _, _, _, body⟩ => by rw [Node.allNodes, List.mem_cons, Body.mem_allNodes body]

theorem mem_allNodesOf {n : Node} : ∀ nodes : List Node,
    n ∈ allNodesOf nodes ↔ ∃ m ∈ nodes,
      n = m ∨ ∃ inner h, m.body = .fused inner ∧ inner.Holds h ∧ n ∈ h.nodes
  | [] => by simp [allNodesOf]
  | m :: nodes => by
    rw [allNodesOf, List.mem_append, Node.mem_allNodes m, mem_allNodesOf nodes]
    simp only [List.mem_cons, exists_eq_or_imp]

/-- These are the nodes of the graphs that a graph holds. -/
theorem Graph.mem_allNodes {n : Node} : ∀ g : Graph,
    n ∈ g.allNodes ↔ ∃ h, g.Holds h ∧ n ∈ h.nodes
  | ⟨names, nodes, inputs, outputs⟩ => by
    rw [Graph.allNodes, mem_allNodesOf nodes]
    constructor
    · rintro ⟨m, hm, rfl | ⟨inner, h, hb, hh, hn⟩⟩
      · exact ⟨_, .self _, hm⟩
      · exact ⟨h, .inside hm hb hh, hn⟩
    · rintro ⟨h, hh, hn⟩
      cases hh with
      | self => exact ⟨n, hn, .inl rfl⟩
      | inside hm hb hh => exact ⟨_, hm, .inr ⟨_, h, hb, hh, hn⟩⟩

end

theorem Graph.forall_holds_iff {g : Graph} {p : Node → Prop} :
    (∀ h, g.Holds h → ∀ n ∈ h.nodes, p n) ↔ ∀ n ∈ g.allNodes, p n := by
  constructor
  · intro hp n hn
    obtain ⟨h, hh, hn⟩ := (g.mem_allNodes).1 hn
    exact hp h hh n hn
  · exact fun hp h hh n hn => hp n ((g.mem_allNodes).2 ⟨h, hh, hn⟩)

namespace Graph.Distinct

variable {g : Graph} (h : g.Distinct)
include h

theorem nodup_inputs : g.inputs.Nodup := h.nodup.of_append_left

/-- What a node makes is made by no node before it, and does not come in from outside. -/
theorem nodup_split {done rest : List Node} {n : Node} (hs : g.nodes = done ++ n :: rest) :
    ((g.inputs ++ outputsOf done) ++ (n.outputs ++ outputsOf rest)).Nodup := by
  have := h.nodup
  rwa [Graph.made, hs, outputsOf_append, outputsOf_cons, ← List.append_assoc] at this

end Graph.Distinct

/-! ### The smallest graph with a node -/

/-- A graph of one operator from one input. -/
def singleGraph (op : String) : Graph :=
  ((Graph.empty.withInput "x" ⟨0⟩).withNode op [⟨0⟩] (.plain Keyed.empty) [⟨1⟩]).addOutput ⟨1⟩

theorem built_singleGraph (op : String) : (singleGraph op).Built :=
  .addOutput (.addOp (.addInput .empty "x" rfl) op [⟨0⟩] Keyed.empty 1 rfl) ⟨1⟩

end ShapeFlow
