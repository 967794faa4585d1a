import ShapeFlow.Inference.Run
import ShapeFlow.Proofs.Walk

/-! What a whole run comes to. It succeeds when all inputs are of kinds that it takes, the walk
    finishes and the wires asked for are filled; the dump changes nothing of that. A run that stops
    does so over an input, in the walk, or over a wire asked for. -/

namespace ShapeFlow

namespace Run

/-- Inputs that inference takes are taken in order. -/
theorem infos_ok_iff {index : Nat} {inputs : List RuntimeInput} {given : List ValueInfo} :
    (infos index inputs).outcome = .ok given ↔ inputs.map RuntimeInput.info? = given.map some := by
  induction inputs generalizing index given with
  | nil => cases given <;> simp [infos]
  | cons input rest ih =>
    simp only [infos, List.map_cons]
    cases hi : input.info? with
    | none => cases given <;> simp
    | some info =>
      have hstep : (infos (index + 1) rest >>= fun others => pure (info :: others)).outcome
          = .ok given ↔ ∃ others, rest.map RuntimeInput.info? = others.map some ∧
            info :: others = given := by
        simp only [Traced.bind_ok_iff, ih, Traced.outcome_pure, Except.ok.injEq]
      refine hstep.trans ?_
      cases given with
      | nil => simp
      | cons first others =>
        constructor
        · rintro ⟨others', ho, he⟩
          obtain ⟨rfl, rfl⟩ := List.cons.inj he
          rw [ho, List.map_cons]
        · intro h
          rw [List.map_cons, List.cons.injEq, Option.some.injEq] at h
          exact ⟨others, h.2, by rw [h.1]⟩

/-- Inputs are refused over the first that inference does not take. -/
theorem infos_error_iff {index : Nat} {inputs : List RuntimeInput} {stop : Stop} :
    (infos index inputs).outcome = .error stop ↔
      ∃ taken input rest, inputs = taken ++ input :: rest ∧ (∀ i ∈ taken, i.info?.isSome) ∧
        input.info? = none ∧
        stop = .failed (.unsupportedInput (index + taken.length) input.kind) := by
  induction inputs generalizing index with
  | nil => simp [infos]
  | cons first others ih =>
    rw [infos]
    cases hi : first.info? with
    | none =>
      constructor
      · intro h
        cases h
        exact ⟨[], first, others, rfl, by simp, hi, rfl⟩
      · rintro ⟨_ | ⟨i, taken⟩, input, rest, hsplit, ht, hn, rfl⟩
        · cases hsplit
          rfl
        · cases hsplit
          simp [hi] at ht
    | some info =>
      show (infos (index + 1) others >>= fun others => pure (info :: others)).outcome = _ ↔ _
      rw [Traced.bind_error_iff]
      constructor
      · rintro (h | ⟨_, _, h⟩)
        · obtain ⟨taken, input, rest, rfl, ht, hn, rfl⟩ := ih.1 h
          refine ⟨first :: taken, input, rest, rfl, ?_, hn, ?_⟩
          · simpa [hi] using ht
          · rw [List.length_cons, Nat.add_right_comm, Nat.add_assoc]
        · cases h
      · rintro ⟨_ | ⟨i, taken⟩, input, rest, hsplit, ht, hn, rfl⟩
        · cases hsplit
          rw [hi] at hn
          cases hn
        · cases hsplit
          refine .inl (ih.2 ⟨taken, input, rest, rfl, fun j hj => ht j (by simp [hj]), hn, ?_⟩)
          rw [List.length_cons, Nat.add_right_comm, Nat.add_assoc]

/-- Equal inputs are taken as equal values. -/
theorem getElem?_infos {inputs inputs' : List RuntimeInput} {given given' : List ValueInfo}
    (h : (infos 0 inputs).outcome = .ok given) (h' : (infos 0 inputs').outcome = .ok given')
    {i : Nat} (hi : inputs[i]? = inputs'[i]?) : given[i]? = given'[i]? := by
  have hat := congrArg (·[i]?) (infos_ok_iff.1 h)
  have hat' := congrArg (·[i]?) (infos_ok_iff.1 h')
  simp only [List.getElem?_map] at hat hat'
  rw [hi, hat'] at hat
  exact (Option.map_injective fun _ _ => Option.some.inj) hat.symm

/-- Converting the inputs breaks no promise. -/
theorem infos_ne_faulted (index : Nat) (inputs : List RuntimeInput) (fault : Fault) :
    (infos index inputs).outcome ≠ .error (.faulted fault) := by
  intro h
  obtain ⟨_, _, _, _, _, _, he⟩ := infos_error_iff.1 h
  cases he

/-- A run ends as it would without the dump. -/
theorem outcome_infer (setup : Setup) (g : Graph) (inputs : List RuntimeInput) :
    (g.infer setup inputs).outcome = (report setup g inputs).outcome := by
  rw [Graph.infer]
  rw [Traced.outcome_bind]
  cases (report setup g inputs).outcome with
  | error stop => rfl
  | ok r =>
    show Traced.outcome _ = _
    split <;> rfl

end Run

namespace Graph

variable {setup : Setup} {g : Graph} {inputs : List RuntimeInput}

/-- A run that succeeds has taken its inputs, walked the graph and read what was asked for. -/
theorem infer_ok_iff {r : Report} :
    (g.infer setup inputs).outcome = .ok r ↔
      ∃ given, (Run.infos 0 inputs).outcome = .ok given ∧
        (g.walk setup 0 given).outcome = .ok r.table ∧
        r.table.readAll g.outputs = .ok r.outputs ∧ r.graph = g := by
  rw [Run.outcome_infer, Run.report]
  simp only [Traced.bind_ok_iff, Traced.ofFault_ok_iff, Traced.outcome_pure, Except.ok.injEq]
  obtain ⟨g', t, outs⟩ := r
  constructor
  · rintro ⟨given, hg, t', ht, outs', ho, he⟩
    cases he
    exact ⟨given, hg, ht, ho, rfl⟩
  · rintro ⟨given, hg, ht, ho, rfl⟩
    exact ⟨given, hg, t, ht, outs, ho, rfl⟩

/-- A run that stops does so over an input, in the walk, or over a wire asked for. -/
theorem infer_error_iff {stop : Stop} :
    (g.infer setup inputs).outcome = .error stop ↔
      (Run.infos 0 inputs).outcome = .error stop ∨
        ∃ given, (Run.infos 0 inputs).outcome = .ok given ∧
          ((g.walk setup 0 given).outcome = .error stop ∨
            ∃ t fault, (g.walk setup 0 given).outcome = .ok t ∧
              t.readAll g.outputs = .error fault ∧ stop = .faulted fault) := by
  rw [Run.outcome_infer, Run.report, Traced.bind_error_iff]
  refine or_congr_right (exists_congr fun given => and_congr_right fun _ => ?_)
  rw [Traced.bind_error_iff]
  refine or_congr_right ?_
  constructor
  · rintro ⟨t, ht, h⟩
    rcases Traced.bind_error_iff.1 h with h | ⟨outs, -, h⟩
    · obtain ⟨fault, hf, hs⟩ := Traced.ofFault_error_iff.1 h
      exact ⟨t, fault, ht, hf, hs⟩
    · cases h
  · rintro ⟨t, fault, ht, hf, hs⟩
    exact ⟨t, ht, Traced.bind_error_iff.2 (.inl (Traced.ofFault_error_iff.2 ⟨fault, hf, hs⟩))⟩

end Graph

end ShapeFlow
