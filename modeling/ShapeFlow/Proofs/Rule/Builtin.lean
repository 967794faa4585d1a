import ShapeFlow.Proofs.Keyed
import ShapeFlow.Proofs.Rule.Counts
import ShapeFlow.Proofs.Rule.Faults

/-! What is known of every shape function of the built-in book. Whatever stands under an identity there
    is the shape function of a built-in rule, so it gives up on overflows alone, and only under two
    identities does it describe more than the first output of a node. -/

namespace ShapeFlow

namespace RuleBook

variable {op : String} {rule : ShapeFn}

/-- A shape function of the built-in book is that of a kind of rule listed there. -/
theorem exists_kind (h : builtin.get? op = some rule) :
    ∃ kind, (op, kind) ∈ builtinKinds ∧ rule = kind.shapeFn := by
  rcases Keyed.of_get?_setAll h with h | h
  · cases h
  · obtain ⟨⟨name, kind⟩, hmem, he⟩ := List.mem_map.1 h
    cases he
    exact ⟨kind, hmem, rfl⟩

theorem faultsOnly_builtin (h : builtin.get? op = some rule) (given : List ValueInfo)
    (site : CallSite) : FaultsOnly Fault.IsOverflow (rule given site) := by
  obtain ⟨kind, -, rfl⟩ := exists_kind h
  exact kind.faultsOnly_shapeFn given site

/-- The operators whose rules describe all outputs. -/
def spreading : List String := ["prim::ConstantChunk", "prim::ListUnpack"]

theorem spreads_iff_of_mem {kind : Rule.Kind} (h : (op, kind) ∈ builtinKinds) :
    kind.spreads = true ↔ op ∈ spreading := by
  have hall : ∀ p ∈ builtinKinds, p.2.spreads = true ↔ p.1 ∈ spreading := by decide
  exact hall _ h

theorem length_builtin (h : builtin.get? op = some rule) (given : List ValueInfo)
    (site : CallSite) :
    Ensures (fun made => made.length = if op ∈ spreading then site.outputCount else 1)
      (rule given site) := by
  obtain ⟨kind, hmem, rfl⟩ := exists_kind h
  have hlength := kind.length_shapeFn given site
  simp only [spreads_iff_of_mem hmem] at hlength
  exact hlength

end RuleBook

end ShapeFlow
