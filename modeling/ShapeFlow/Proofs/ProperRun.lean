import ShapeFlow.Proofs.Invariant
import ShapeFlow.Proofs.Rule.Proper

/-! What a run reports is in order. If tensors come in without negative sizes, as inputs and as
    constants, then all that a run with the built-in rules knows is proper: no size is negative, so
    no `-1` of a target shape is left, and integers come with the sizes that stand in for them. -/

namespace ShapeFlow

/-- No tensor constant in the graph, or in a graph that it holds, has a negative size. -/
def Graph.LiteralsNonneg (g : Graph) : Prop :=
  ∀ h, g.Holds h → ∀ n ∈ h.nodes, n.op = RuleBook.constantOp → ∀ attrs, n.body = .plain attrs →
    ∀ dims elem, attrs.get? "value" = some (.tensor dims elem) → dims.Nonneg

namespace Graph

/-- Graphs inside of a node have to be looked at one level at a time. -/
theorem LiteralsNonneg.intro {g : Graph}
    (hp : ∀ n ∈ g.nodes, n.op = RuleBook.constantOp → ∀ attrs, n.body = .plain attrs →
      ∀ dims elem, attrs.get? "value" = some (.tensor dims elem) → dims.Nonneg)
    (hi : ∀ n ∈ g.nodes, ∀ inner, n.body = .fused inner → inner.LiteralsNonneg) :
    g.LiteralsNonneg := by
  intro h hh
  cases hh with
  | self => exact hp
  | inside hn hb hh => exact hi _ hn _ hb h hh

/-- The built-in rules keep values proper at all nodes of such a graph. -/
theorem LiteralsNonneg.keeps {g : Graph} (hg : g.LiteralsNonneg) (options : Options) :
    Keeps ⟨.builtin, options⟩ ValueInfo.Proper g where
  rule h hh n hn attrs hb given made hgiven hm := by
    obtain ⟨rule, hbook, hrule⟩ := Walk.applyRule_ok_iff.1 hm
    refine RuleBook.proper_builtin hbook hgiven (fun hop => ?_) made hrule
    show ((attrs.get? "value").getD .none).Nonneg
    cases hv : attrs.get? "value" with
    | none => trivial
    | some value =>
      cases value with
      | tensor dims elem => exact hg h hh n hn hop attrs hb dims elem hv
      | int => trivial
      | float => trivial
      | bool => trivial
      | none => trivial
  tensor x hx dims hd := ValueInfo.proper_tensor_iff.2 (hx.asTensor dims hd)

end Graph

/-- An input whose tensor has no negative size is taken as a proper value. -/
theorem RuntimeInput.proper_info {input : RuntimeInput}
    (hi : ∀ dims elem, input = .tensor dims elem → dims.Nonneg) {x : ValueInfo}
    (h : input.info? = some x) : x.Proper := by
  cases input with
  | tensor dims elem => cases h; simpa using hi dims elem rfl
  | bool => cases h; simp
  | int => cases h; simp
  | intList => cases h; simp
  | float => cases h
  | string => cases h
  | tensorList => cases h

/-- PROPER: a run with the built-in rules that succeeds, from tensors without negative sizes, reports
    proper values alone. -/
theorem Graph.infer_proper {g : Graph} (hg : g.LiteralsNonneg) (options : Options)
    {inputs : List RuntimeInput}
    (hi : ∀ input ∈ inputs, ∀ dims elem, input = .tensor dims elem → dims.Nonneg) {r : Report}
    (h : (g.infer ⟨.builtin, options⟩ inputs).outcome = .ok r) :
    (∀ p ∈ r.entries, p.2.Proper) ∧ (∀ w info, r.get? w = some info → info.Proper) ∧
      ∀ info ∈ r.outputs, info.Proper := by
  have hinfo : ∀ input ∈ inputs, ∀ x, input.info? = some x → x.Proper := by
    intro input hin x hx
    exact RuntimeInput.proper_info (hi input hin) hx
  obtain ⟨htable, houtputs⟩ := Graph.satisfies_infer (hg.keeps options) hinfo h
  refine ⟨?_, htable, houtputs⟩
  rintro ⟨w, info⟩ hp
  exact htable w info (Table.mem_known_iff.1 hp)

/-! ### A target shape with a `-1`, and a constant inside of a fused graph -/

/-- Rows below each other: those that come in, and a constant without any. -/
def paddedGraph : Graph :=
  (Graph.empty.withInput "x" ⟨0⟩)
    |>.withNode "prim::Constant" [] (.plain (Keyed.empty.set "value" (.tensor [0, 8] .float))) [⟨1⟩]
    |>.withNode "prim::FusedConcat" [⟨0⟩, ⟨1⟩] (.plain (Keyed.empty.set "dim" (.int 0))) [⟨2⟩]
    |>.addOutput ⟨2⟩

/-- A tensor brought into a target shape, and then padded by a fused graph. -/
def reshapedGraph : Graph :=
  ((Graph.empty.withInput "x" ⟨0⟩).withInput "shape" ⟨1⟩)
    |>.withNode "aten::reshape" [⟨0⟩, ⟨1⟩] (.plain Keyed.empty) [⟨2⟩]
    |>.withNode "glow::FusionGroup" [⟨2⟩] (.fused paddedGraph) [⟨3⟩]
    |>.addOutput ⟨3⟩

theorem literalsNonneg_paddedGraph : paddedGraph.LiteralsNonneg := by
  refine .intro ?_ ?_
  · intro n hn hop attrs hb dims elem hv
    rcases List.mem_cons.1 hn with rfl | hn
    · cases hb
      cases hv
      decide
    · rw [List.mem_singleton.1 hn] at hop
      exact absurd hop (by decide)
  · intro n hn inner hb
    rcases List.mem_cons.1 hn with rfl | hn
    · cases hb
    · rw [List.mem_singleton.1 hn] at hb
      cases hb

theorem literalsNonneg_reshapedGraph : reshapedGraph.LiteralsNonneg := by
  refine .intro ?_ ?_
  · intro n hn hop attrs hb
    rcases List.mem_cons.1 hn with rfl | hn
    · exact absurd hop (by decide)
    · rw [List.mem_singleton.1 hn] at hb
      cases hb
  · intro n hn inner hb
    rcases List.mem_cons.1 hn with rfl | hn
    · cases hb
    · rw [List.mem_singleton.1 hn] at hb
      cases hb
      exact literalsNonneg_paddedGraph

theorem Graph.infer_proper_reshapedGraph :
    ∃ r, (reshapedGraph.infer ⟨.builtin, .default⟩
        [.tensor [4, 6] .float, .intList [3, -1]]).outcome = .ok r ∧
      r.outputs = [.tensor [3, 8] (some .float)] ∧ (∀ info ∈ r.outputs, info.Proper) ∧
        ∀ p ∈ r.entries, p.2.Proper := by
  have hi : ∀ input ∈ [RuntimeInput.tensor [4, 6] .float, .intList [3, -1]], ∀ dims elem,
      input = .tensor dims elem → dims.Nonneg := by
    intro input hin dims elem he
    rcases List.mem_cons.1 hin with rfl | hin
    · cases he
      decide
    · rw [List.mem_singleton.1 hin] at he
      cases he
  have h := Graph.infer_proper literalsNonneg_reshapedGraph .default hi rfl
  exact ⟨_, rfl, rfl, h.2.2, h.1⟩

end ShapeFlow
