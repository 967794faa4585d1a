import ShapeFlow.Attribute
import ShapeFlow.Outcome

/-! Where a rule is called from: all that it may know of its node beside the operands. -/

namespace ShapeFlow

/-- The node's operator, constants and number of outputs, and whether the offsets of embedding bags
    close with an end offset. -/
structure CallSite where
  op : String
  attrs : Attributes
  outputCount : Nat
  endOffset : Bool

namespace CallSite

/-- An integer constant, if the name is set; a constant of another kind is refused. -/
def int? (site : CallSite) (name : String) : Outcome (Option Int) :=
  match site.attrs.get? name with
  | none => pure none
  | some (.int value) => pure (some value)
  | some other => refuse (.invalidValue (.attributeNotInt name other.kind))

/-- An integer constant that has to be there. -/
def requiredInt (site : CallSite) (name : String) : Outcome Int := do
  match ← site.int? name with
  | some value => pure value
  | none => refuse (.invalidValue (.attributeMissing name))

theorem requiredInt_of_get? {site : CallSite} {name : String} {value : Int}
    (h : site.attrs.get? name = some (.int value)) : site.requiredInt name = .ok value := by
  rw [requiredInt, int?, h]
  rfl

end CallSite

end ShapeFlow
