import ShapeFlow.CallSite
import ShapeFlow.Proofs.Keyed

/-! The constants of a node as a rule finds them. They are set one after the other when the node is made,
    and a rule that asks for an integer gets the last one that was set under the name. A constant of
    another kind that was set after it is not looked behind: the integer is then gone and the rule
    refuses. Only a name that was never set counts as absent. -/

namespace ShapeFlow

namespace CallSite

variable {site : CallSite} {name : String}

theorem int?_of_get? {value : Int} (h : site.attrs.get? name = some (.int value)) :
    site.int? name = .ok (some value) := by
  rw [int?, h]
  rfl

/-- A constant of another kind is refused, also where none has to be there. -/
theorem int?_of_not_int {value : Attribute} (h : site.attrs.get? name = some value)
    (hkind : ∀ n, value ≠ .int n) :
    site.int? name = refuse (.invalidValue (.attributeNotInt name value.kind)) := by
  rw [int?, h]
  cases value with
  | int n => exact absurd rfl (hkind n)
  | _ => rfl

theorem int?_of_absent (h : site.attrs.get? name = none) : site.int? name = .ok none := by
  rw [int?, h]
  rfl

theorem requiredInt_of_not_int {value : Attribute} (h : site.attrs.get? name = some value)
    (hkind : ∀ n, value ≠ .int n) :
    site.requiredInt name = refuse (.invalidValue (.attributeNotInt name value.kind)) := by
  rw [requiredInt, int?_of_not_int h hkind]
  rfl

theorem requiredInt_of_absent (h : site.attrs.get? name = none) :
    site.requiredInt name = refuse (.invalidValue (.attributeMissing name)) := by
  rw [requiredInt, int?_of_absent h]
  rfl

end CallSite

/-- ORDERED MAP: after any settings the names are distinct and stand as they first came, and under each is
    what it was set to last. Two rows of settings come to equal constants exactly if the names first
    come in the same order and are set to equal values last. A rule is given the last integer, refuses
    a last value that is none, and finds nothing under a name that was never set. -/
theorem Attributes.setAll_ordered_map (calls : List (String × Attribute)) :
    (Keyed.empty.setAll calls).names.Nodup ∧
    (Keyed.empty.setAll calls).names = Keyed.arrivals calls ∧
    (∀ name, (Keyed.empty.setAll calls).get? name = Keyed.latest? calls name) ∧
    (∀ calls' : List (String × Attribute),
      (Keyed.empty.setAll calls == Keyed.empty.setAll calls') = true ↔
        Keyed.arrivals calls = Keyed.arrivals calls' ∧
          ∀ name, (Keyed.latest? calls name == Keyed.latest? calls' name) = true) ∧
    ∀ (site : CallSite) (name : String), site.attrs = Keyed.empty.setAll calls →
      (∀ value, Keyed.latest? calls name = some (.int value) →
        site.int? name = .ok (some value) ∧ site.requiredInt name = .ok value) ∧
      (∀ value, Keyed.latest? calls name = some value → (∀ n, value ≠ .int n) →
        site.int? name = refuse (.invalidValue (.attributeNotInt name value.kind)) ∧
          site.requiredInt name = refuse (.invalidValue (.attributeNotInt name value.kind))) ∧
      ((∀ p ∈ calls, p.1 ≠ name) →
        site.int? name = .ok none ∧
          site.requiredInt name = refuse (.invalidValue (.attributeMissing name))) := by
  have hnodup : (Keyed.empty.setAll calls).names.Nodup := Keyed.nodup_names_setAll List.nodup_nil
  have hget (calls : List (String × Attribute)) (name : String) :
      (Keyed.empty.setAll calls).get? name = Keyed.latest? calls name := by
    rw [Keyed.get?_setAll, Keyed.get?_empty, Option.or_none]
  refine ⟨hnodup, Keyed.names_setAll_empty calls, hget calls, fun calls' => ?_, ?_⟩
  · rw [Keyed.beq_iff hnodup]
    simp only [Keyed.names_setAll_empty, hget]
  · intro site name hsite
    have hfound : site.attrs.get? name = Keyed.latest? calls name := by rw [hsite, hget]
    refine ⟨fun value hlast => ?_, fun value hlast hkind => ?_, fun hnever => ?_⟩
    · rw [← hfound] at hlast
      exact ⟨CallSite.int?_of_get? hlast, CallSite.requiredInt_of_get? hlast⟩
    · rw [← hfound] at hlast
      exact ⟨CallSite.int?_of_not_int hlast hkind, CallSite.requiredInt_of_not_int hlast hkind⟩
    · rw [Keyed.latest?_eq_none_iff.2 hnever] at hfound
      exact ⟨CallSite.int?_of_absent hfound, CallSite.requiredInt_of_absent hfound⟩

/-- An axis set twice, with two other constants in between. -/
def Attributes.axisTwice : List (String × Attribute) :=
  [("dim", .int 1), ("chunks", .int 3), ("value", .float ⟨0x3fe0000000000000⟩), ("dim", .int (-1))]

/-- The same constants with the axis set once. -/
def Attributes.axisOnce : List (String × Attribute) :=
  [("dim", .int (-1)), ("chunks", .int 3), ("value", .float ⟨0x3fe0000000000000⟩)]

/-- The two come to equal constants, and in another order they do not. The second axis is the one that is
    read, and a float is no integer. -/
theorem Attributes.setAll_ordered_map_axisTwice :
    (Keyed.empty.setAll axisTwice).names = ["dim", "chunks", "value"] ∧
    (Keyed.empty.setAll axisTwice == Keyed.empty.setAll axisOnce) = true ∧
    ¬ (Keyed.empty.setAll axisTwice == Keyed.empty.setAll axisOnce.reverse) = true ∧
    (CallSite.mk "prim::ConstantChunk" (Keyed.empty.setAll axisTwice) 3 true).requiredInt "dim"
      = .ok (-1) ∧
    (CallSite.mk "prim::ConstantChunk" (Keyed.empty.setAll axisTwice) 3 true).requiredInt "value"
      = refuse (.invalidValue (.attributeNotInt "value" "float")) ∧
    (CallSite.mk "prim::ConstantChunk" (Keyed.empty.setAll axisTwice) 3 true).int? "axis"
      = .ok none := by
  obtain ⟨-, hnames, -, heq, hread⟩ := Attributes.setAll_ordered_map axisTwice
  refine ⟨hnames.trans (by decide), (heq axisOnce).2 ⟨by decide, fun name => ?_⟩,
    fun h => absurd ((heq axisOnce.reverse).1 h).1 (by decide), ((hread _ "dim" rfl).1 (-1) rfl).2,
    ((hread _ "value" rfl).2.1 (.float ⟨0x3fe0000000000000⟩) rfl (by simp)).2,
    ((hread _ "axis" rfl).2.2 (by decide)).1⟩
  by_cases hset : name ∈ ["dim", "chunks", "value"]
  · simp only [List.mem_cons, List.not_mem_nil, or_false] at hset
    rcases hset with rfl | rfl | rfl <;> rfl
  · have hnone {calls : List (String × Attribute)}
        (h : ∀ p ∈ calls, p.1 ∈ ["dim", "chunks", "value"]) : Keyed.latest? calls name = none :=
      Keyed.latest?_eq_none_iff.2 fun p hp he => hset (he ▸ h p hp)
    rw [hnone (by decide), hnone (by decide)]
    rfl

end ShapeFlow
