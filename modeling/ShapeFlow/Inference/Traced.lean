import ShapeFlow.Fault
import ShapeFlow.Inference.Error
import ShapeFlow.Inference.Event

/-! Computations that leave records behind and may stop. The records of what was done before a stop
    are kept; nothing after it is recorded. -/

namespace ShapeFlow

/-- Why a run stops early. -/
inductive Stop where
  | failed (error : InferenceError)
  | faulted (fault : Fault)
  deriving DecidableEq, Repr

/-- Records in order, and how the computation ended. -/
structure Traced (α : Type) where
  events : List Event
  outcome : Except Stop α

namespace Traced

variable {α β γ : Type}

protected def pure (a : α) : Traced α := ⟨[], .ok a⟩

protected def bind (x : Traced α) (f : α → Traced β) : Traced β :=
  match x.outcome with
  | .ok a =>
    let y := f a
    ⟨x.events ++ y.events, y.outcome⟩
  | .error stop => ⟨x.events, .error stop⟩

instance : Monad Traced where
  pure := Traced.pure
  bind := Traced.bind

instance : LawfulMonad Traced := LawfulMonad.mk' Traced
  (fun x => by
    rcases x with ⟨es, _ | _⟩ <;> simp [Functor.map, Traced.bind, Traced.pure])
  (fun _ _ => rfl)
  (fun x f g => by
    rcases x with ⟨es, _ | a⟩
    · rfl
    · simp only [Bind.bind, Traced.bind]
      rcases f a with ⟨fs, _ | _⟩ <;> simp)

/-- Records one event. -/
def emit (event : Event) : Traced Unit := ⟨[event], .ok ()⟩

/-- Stops with an error. -/
def fail (error : InferenceError) : Traced α := ⟨[], .error (.failed error)⟩

/-- Stops with a fault. -/
def fault (fault : Fault) : Traced α := ⟨[], .error (.faulted fault)⟩

/-- A silent computation that can only fault. -/
def ofFault : Except Fault α → Traced α
  | .ok a => Traced.pure a
  | .error e => fault e

/-- Places an error inside a node. Faults pass as they are. -/
def inside (node : Label) (x : Traced α) : Traced α :=
  match x.outcome with
  | .error (.failed error) => ⟨x.events, .error (.failed (.inside node error))⟩
  | _ => x

/-! ### How each computation ends, and what it records -/

/-- Two steps in a row end as the second does, if the first one finishes. -/
theorem outcome_bind (x : Traced α) (f : α → Traced β) :
    (x >>= f).outcome = x.outcome.bind fun a => (f a).outcome := by
  rcases x with ⟨es, _ | a⟩ <;> rfl

/-- A finished first step has its records in front of the second one's. -/
theorem events_bind_of_ok {x : Traced α} {a : α} (h : x.outcome = .ok a) (f : α → Traced β) :
    (x >>= f).events = x.events ++ (f a).events := by
  rcases x with ⟨es, _ | b⟩
  · cases h
  · cases h; rfl

/-- After a stop nothing more is recorded. -/
theorem events_bind_of_error {x : Traced α} {stop : Stop} (h : x.outcome = .error stop)
    (f : α → Traced β) : (x >>= f).events = x.events := by
  rcases x with ⟨es, _ | b⟩
  · rfl
  · cases h

@[simp] theorem events_ofFault (x : Except Fault α) : (ofFault x).events = [] := by
  cases x <;> rfl

/-- Placing an error inside a node leaves the records as they are. -/
@[simp] theorem events_inside (node : Label) (x : Traced α) : (x.inside node).events = x.events := by
  rcases x with ⟨es, (_ | _) | _⟩ <;> rfl

@[simp] theorem outcome_inside_eq_ok_iff {node : Label} {x : Traced α} {a : α} :
    (x.inside node).outcome = .ok a ↔ x.outcome = .ok a := by
  rcases x with ⟨es, (_ | _) | _⟩ <;> simp [inside]

end Traced

end ShapeFlow
