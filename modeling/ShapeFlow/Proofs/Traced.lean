import ShapeFlow.Inference.Traced
import Mathlib.Tactic.Common

/-! How a computation in steps ends. It finishes when every step does, and otherwise stops where the
    first step stops; both are stated once here, as equivalences, and every later fact about runs
    takes a run apart with them. Records are left aside: only the outcome counts.

    Two computations *match* when they finish together with related results, or stop together for
    related reasons. Steps that match one after the other match as a whole. -/

namespace ShapeFlow

variable {α β γ δ ε ζ η θ : Type}

namespace Traced

/-- Two steps finish when the first finishes and the second does on its result. -/
theorem bind_ok_iff {x : Traced α} {f : α → Traced β} {b : β} :
    (x >>= f).outcome = .ok b ↔ ∃ a, x.outcome = .ok a ∧ (f a).outcome = .ok b := by
  rw [outcome_bind]
  cases x.outcome <;> simp [Except.bind]

/-- Two steps stop where the first does, or where the second does after it. -/
theorem bind_error_iff {x : Traced α} {f : α → Traced β} {stop : Stop} :
    (x >>= f).outcome = .error stop ↔
      x.outcome = .error stop ∨ ∃ a, x.outcome = .ok a ∧ (f a).outcome = .error stop := by
  rw [outcome_bind]
  cases x.outcome <;> simp [Except.bind]

@[simp] theorem outcome_pure (a : α) : (pure a : Traced α).outcome = .ok a := rfl

@[simp] theorem outcome_emit (event : Event) : (emit event).outcome = .ok () := rfl

@[simp] theorem outcome_fail (error : InferenceError) :
    (fail error : Traced α).outcome = .error (.failed error) := rfl

@[simp] theorem outcome_fault (f : Fault) :
    (fault f : Traced α).outcome = .error (.faulted f) := rfl

/-- A record before a computation does not change how it ends. -/
@[simp] theorem outcome_emit_bind (event : Event) (f : Unit → Traced β) :
    (emit event >>= f).outcome = (f ()).outcome := rfl

/-- A record before a computation comes before its records. -/
@[simp] theorem events_emit_bind (event : Event) (f : Unit → Traced β) :
    (emit event >>= f).events = event :: (f ()).events := rfl

@[simp] theorem ofFault_ok_iff {x : Except Fault α} {a : α} :
    (ofFault x).outcome = .ok a ↔ x = .ok a := by
  cases x <;> simp [ofFault, fault, Traced.pure]

theorem ofFault_error_iff {x : Except Fault α} {stop : Stop} :
    (ofFault x).outcome = .error stop ↔ ∃ f, x = .error f ∧ stop = .faulted f := by
  cases x <;> simp [ofFault, fault, Traced.pure, eq_comm]

end Traced

/-! ### Stops inside of nodes -/

/-- A stop as the graph around a node sees it. -/
def Stop.inside (node : Label) : Stop → Stop
  | .failed error => .failed (.inside node error)
  | .faulted fault => .faulted fault

namespace Stop

/-- A fault passes all nodes around it as it is. -/
theorem foldr_inside_faulted (labels : List Label) (fault : Fault) :
    labels.foldr inside (.faulted fault) = .faulted fault := by
  induction labels with
  | nil => rfl
  | cons label labels ih => rw [List.foldr_cons, ih]; rfl

/-- An error is wrapped once for each node around it. -/
theorem foldr_inside_failed (labels : List Label) (error : InferenceError) :
    labels.foldr inside (.failed error) = .failed (labels.foldr .inside error) := by
  induction labels with
  | nil => rfl
  | cons label labels ih => rw [List.foldr_cons, ih]; rfl

theorem foldr_inside_eq_faulted_iff {labels : List Label} {stop : Stop} {fault : Fault} :
    labels.foldr inside stop = .faulted fault ↔ stop = .faulted fault := by
  cases stop with
  | failed error => rw [foldr_inside_failed]; simp
  | faulted fault' => rw [foldr_inside_faulted]

/-- Stops over the same error, or over broken promises that need not be the same. -/
inductive Alike : Stop → Stop → Prop where
  | failed (error : InferenceError) : Alike (.failed error) (.failed error)
  | faulted (fault fault' : Fault) : Alike (.faulted fault) (.faulted fault')

theorem Alike.refl (stop : Stop) : stop.Alike stop := by
  cases stop with
  | failed error => exact .failed error
  | faulted fault => exact .faulted fault fault

end Stop

namespace InferenceError

/-- Wrappers leave the kind of an error as it is. -/
theorem kind_foldr_inside (labels : List Label) (error : InferenceError) :
    (labels.foldr inside error).kind = error.kind := by
  induction labels with
  | nil => rfl
  | cons label labels ih => exact ih

/-- Wrappers put their names in front of the path of an error. -/
theorem path_foldr_inside (labels : List Label) (error : InferenceError) :
    (labels.foldr inside error).path = labels.map (·.name) ++ error.path := by
  induction labels with
  | nil => rfl
  | cons label labels ih => rw [List.foldr_cons, path, ih]; rfl

end InferenceError

namespace Traced

/-- Placing a computation inside a node changes its errors and nothing else. -/
theorem outcome_inside (node : Label) (x : Traced α) :
    (x.inside node).outcome = x.outcome.mapError (Stop.inside node) := by
  rcases x with ⟨es, (_ | _) | _⟩ <;> rfl

theorem inside_error_iff {node : Label} {x : Traced α} {stop : Stop} :
    (x.inside node).outcome = .error stop ↔
      ∃ inner, x.outcome = .error inner ∧ stop = inner.inside node := by
  rw [outcome_inside]
  cases x.outcome <;> simp [Except.mapError, eq_comm]

end Traced

/-! ### Computations side by side -/

/-- Two results that are related, or two reasons that are. -/
inductive Matches (E : ε → ζ → Prop) (R : α → β → Prop) : Except ε α → Except ζ β → Prop where
  | ok {a : α} {b : β} (h : R a b) : Matches E R (.ok a) (.ok b)
  | error {e : ε} {e' : ζ} (h : E e e') : Matches E R (.error e) (.error e')

namespace Matches

variable {E : ε → ζ → Prop} {R : α → β → Prop} {S : γ → δ → Prop}

/-- The right side finishes where the left one does. -/
theorem of_left {x : Except ε α} {y : Except ζ β} {a : α} (h : Matches E R x y)
    (hx : x = .ok a) : ∃ b, y = .ok b ∧ R a b := by
  subst hx
  cases h with
  | ok h => exact ⟨_, rfl, h⟩

/-- The left side finishes where the right one does. -/
theorem of_right {x : Except ε α} {y : Except ζ β} {b : β} (h : Matches E R x y)
    (hy : y = .ok b) : ∃ a, x = .ok a ∧ R a b := by
  subst hy
  cases h with
  | ok h => exact ⟨_, rfl, h⟩

/-- Steps that match, one after the other. -/
theorem bind {x : Except ε α} {y : Except ζ β} {f : α → Except ε γ} {g : β → Except ζ δ}
    (h : Matches E R x y) (hf : ∀ a b, R a b → Matches E S (f a) (g b)) :
    Matches E S (x >>= f) (y >>= g) := by
  cases h with
  | ok h => exact hf _ _ h
  | error h => exact .error h

/-- What holds of the results besides may be added. -/
theorem imp_ok {T : α → β → Prop} {x : Except ε α} {y : Except ζ β} (h : Matches E R x y)
    (hT : ∀ a b, x = .ok a → y = .ok b → R a b → T a b) : Matches E T x y := by
  cases h with
  | ok h => exact .ok (hT _ _ rfl rfl h)
  | error h => exact .error h

/-- Reasons may be put in other words on both sides. -/
theorem mapError {E' : η → θ → Prop} {f : ε → η} {g : ζ → θ} {x : Except ε α} {y : Except ζ β}
    (h : Matches E R x y) (hE : ∀ e e', E e e' → E' (f e) (g e')) :
    Matches E' R (x.mapError f) (y.mapError g) := by
  cases h with
  | ok h => exact .ok h
  | error h => exact .error (hE _ _ h)

/-- A computation matches itself. -/
theorem refl {E : ε → ε → Prop} {R : α → α → Prop} (hE : ∀ e, E e e) (hR : ∀ a, R a a)
    (x : Except ε α) : Matches E R x x := by
  cases x with
  | ok a => exact .ok (hR a)
  | error e => exact .error (hE e)

/-- Computations that end alike match. -/
theorem of_eq {E : ε → ε → Prop} (hE : ∀ e, E e e) {x y : Except ε α} (h : x = y) :
    Matches E Eq x y := by
  subst h
  exact refl hE (fun _ => rfl) x

/-- The right side fails where the left one does, with the same error. -/
theorem failed_of_left {x : Except Stop α} {y : Except Stop β} {error : InferenceError}
    (h : Matches Stop.Alike R x y) (hx : x = .error (.failed error)) :
    y = .error (.failed error) := by
  subst hx
  cases h with
  | error h => cases h; rfl

end Matches

/-- Steps that match make computations that match. -/
theorem Traced.matches_bind {E : Stop → Stop → Prop} {R : α → β → Prop} {S : γ → δ → Prop}
    {x : Traced α} {y : Traced β} {f : α → Traced γ} {g : β → Traced δ}
    (h : Matches E R x.outcome y.outcome)
    (hf : ∀ a b, R a b → Matches E S (f a).outcome (g b).outcome) :
    Matches E S (x >>= f).outcome (y >>= g).outcome := by
  rcases x with ⟨es, x⟩
  rcases y with ⟨fs, y⟩
  cases h with
  | ok h => exact hf _ _ h
  | error h => exact .error h

theorem Traced.matches_ofFault {R : α → β → Prop} {x : Except Fault α} {y : Except Fault β}
    (h : Matches (fun _ _ => True) R x y) :
    Matches Stop.Alike R (ofFault x).outcome (ofFault y).outcome := by
  cases h with
  | ok h => exact .ok h
  | error => exact .error (.faulted _ _)

end ShapeFlow
