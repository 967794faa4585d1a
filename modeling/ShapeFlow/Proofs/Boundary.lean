import ShapeFlow.Proofs.Lockstep

/-! What passes into a fused graph. Its values are seeded as tensors, so of an integer payload only
    the sizes and the element type go in. Take an input that none but fused nodes read and that is
    not asked for, and change the integers supplied for it: every fused node seeds its graph as
    before, every plain node reads what it read before, and so two such runs stay in step at every
    other wire, whatever the graphs inside do with what they are given. -/

namespace ShapeFlow

/-- What a fused graph gets of the two values is the same: neither is refused but the other, and
    their sizes and element types agree. -/
def ValueInfo.SeededAlike (x x' : ValueInfo) : Prop := x.asTensor = x'.asTensor ∧ x.elem = x'.elem

theorem ValueInfo.SeededAlike.refl (x : ValueInfo) : x.SeededAlike x := ⟨rfl, rfl⟩

/-- The same input with at most other integers: another truth value, another integer, or a list of
    as many integers. -/
inductive RuntimeInput.SameButInts : RuntimeInput → RuntimeInput → Prop where
  | same (input : RuntimeInput) : SameButInts input input
  | bool (value value' : Bool) : SameButInts (.bool value) (.bool value')
  | int (value value' : Int) : SameButInts (.int value) (.int value')
  | intList {values values' : List Int} (h : values.length = values'.length) :
      SameButInts (.intList values) (.intList values')

/-- Such inputs are taken or refused together, and seed fused graphs alike. -/
theorem RuntimeInput.SameButInts.seededAlike {input input' : RuntimeInput}
    (h : input.SameButInts input') :
    input.kind = input'.kind ∧ Option.Rel ValueInfo.SeededAlike input.info? input'.info? := by
  cases h with
  | same input =>
    refine ⟨rfl, ?_⟩
    cases input.info? with
    | none => exact .none
    | some x => exact .some (.refl x)
  | bool value value' => exact ⟨rfl, .some ⟨rfl, rfl⟩⟩
  | int value value' => exact ⟨rfl, .some ⟨rfl, rfl⟩⟩
  | @intList values values' h =>
    refine ⟨rfl, .some ⟨?_, rfl⟩⟩
    show Except.ok [(values.length : Int), 1] = .ok [(values'.length : Int), 1]
    rw [h]

/-- Fused graphs are seeded alike of such values, or refuse them with the same cause. -/
theorem ValueInfo.SeededAlike.mapM_eq {given given' : List ValueInfo}
    (h : List.Forall₂ SeededAlike given given') :
    given.mapM (fun x => x.asTensor.map fun dims => tensor dims x.elem)
      = given'.mapM fun x => x.asTensor.map fun dims => tensor dims x.elem := by
  induction h with
  | nil => rfl
  | cons hx _ ih => rw [List.mapM_cons, List.mapM_cons, hx.1, hx.2, ih]

/-! ### One wire masked -/

/-- The same value, but for the masked wire, where the two seed fused graphs alike. -/
def MaskedAt (v w : Wire) (x x' : ValueInfo) : Prop := x = x' ∨ w = v ∧ x.SeededAlike x'

namespace MaskedAt

variable {v : Wire}

theorem refl (w : Wire) (x : ValueInfo) : MaskedAt v w x x := .inl rfl

theorem seededAlike {w : Wire} {x x' : ValueInfo} (h : MaskedAt v w x x') : x.SeededAlike x' := by
  rcases h with rfl | ⟨-, h⟩
  · exact .refl x
  · exact h

/-- Other wires than the masked one are the same. -/
theorem eq_of_ne {w : Wire} {x x' : ValueInfo} (h : MaskedAt v w x x') (hw : w ≠ v) : x = x' :=
  h.resolve_right fun hv => hw hv.1

/-- Values read off other wires than the masked one are the same. -/
theorem eq_of_not_mem {ws : List Wire} (hv : v ∉ ws) {xs xs' : List ValueInfo}
    (h : List.Forall₂ (fun x x' => ∃ w ∈ ws, MaskedAt v w x x') xs xs') : xs = xs' :=
  List.forall₂_eq_eq_eq ▸ h.imp fun _ _ ⟨_, hw, hx⟩ => hx.eq_of_ne fun he => hv (he ▸ hw)

/-- Values that seed alike, and are the same but at the masked wire. -/
theorem aligned {ws : List Wire} {xs xs' : List ValueInfo}
    (h : List.Forall₂ ValueInfo.SeededAlike xs xs')
    (hsame : ∀ i : Nat, ws[i]? ≠ some v → xs[i]? = xs'[i]?) : Aligned (MaskedAt v) ws xs xs' := by
  induction h generalizing ws with
  | nil => exact .nil ws
  | cons hx h ih =>
    cases ws with
    | nil => exact .spare (congrArg (· + 1) h.length_eq)
    | cons w ws =>
      refine .cons ?_ (ih fun i hi => hsame (i + 1) hi)
      by_cases hw : w = v
      · exact .inr ⟨hw, hx⟩
      · exact .inl (Option.some.inj (hsame 0 fun he => hw (Option.some.inj he)))

end MaskedAt

/-- Errors with the same kind and the same path. -/
def InferenceError.SamePlace (error error' : InferenceError) : Prop :=
  error.kind = error'.kind ∧ error.path = error'.path

theorem InferenceError.SamePlace.refl (error : InferenceError) : error.SamePlace error := ⟨rfl, rfl⟩

/-! ### Runs that differ in integers -/

section

variable {setup : Setup} {v : Wire}

/-- A node makes the same of the same values, and of a masked wire if the node is fused. -/
theorem inStep_of_masked (depth : Nat) {n : Node} (hread : v ∈ n.inputs → n.inner?.isSome) :
    n.InStep setup depth InferenceError.SamePlace (MaskedAt v) n where
  inputs := rfl
  outputs := rfl
  store _ _ := .refl _
  make given given' hg := by
    have hsim := Stop.Similar.refl InferenceError.SamePlace.refl
    have hal := Aligned.refl (R := MaskedAt v) MaskedAt.refl n.outputs
    by_cases hv : v ∈ n.inputs
    · cases hb : n.body with
      | plain attrs =>
        rw [Node.inner?, hb] at hread
        cases hread hv
      | fused inner =>
        -- past the seeds the two graphs inside run from the same tensors
        have hseeds : List.Forall₂ ValueInfo.SeededAlike given given' :=
          hg.imp fun _ _ ⟨_, _, hx⟩ => hx.seededAlike
        have hsame := ValueInfo.SeededAlike.mapM_eq hseeds
        refine Traced.matches_bind
          (inStep_seeds rfl (fun _ => ⟨rfl, rfl⟩) (.of_eq (fun _ => rfl) hsame)) ?_
        rintro tensors _ rfl
        exact .refl hsim hal _
    · obtain rfl := MaskedAt.eq_of_not_mem hv hg
      exact .refl hsim hal _

/-- BOUNDARY: integers of an input that only fused nodes read show nowhere but at that input. Two
    runs that differ in them succeed together and know the same of every other wire, fail together
    with one kind and path, or break the same promise. -/
theorem Graph.infer_masked (setup : Setup) (g : Graph) (v : Wire)
    (hread : ∀ n ∈ g.nodes, v ∈ n.inputs → n.inner?.isSome) (hout : v ∉ g.outputs)
    {inputs inputs' : List RuntimeInput}
    (hints : List.Forall₂ RuntimeInput.SameButInts inputs inputs')
    (hsame : ∀ i : Nat, g.inputs[i]? ≠ some v → inputs[i]? = inputs'[i]?) :
    (∃ r r', (g.infer setup inputs).outcome = .ok r ∧ (g.infer setup inputs').outcome = .ok r' ∧
        (∀ w, w ≠ v → r.get? w = r'.get? w) ∧ r.outputs = r'.outputs) ∨
      (∃ error error', (g.infer setup inputs).outcome = .error (.failed error) ∧
        (g.infer setup inputs').outcome = .error (.failed error') ∧
        error.kind = error'.kind ∧ error.path = error'.path) ∨
      ∃ fault, (g.infer setup inputs).outcome = .error (.faulted fault) ∧
        (g.infer setup inputs').outcome = .error (.faulted fault) := by
  have hinfos : Matches (Stop.Similar InferenceError.SamePlace) (Aligned (MaskedAt v) g.inputs)
      (Run.infos 0 inputs).outcome (Run.infos 0 inputs').outcome := by
    have hseeded := Run.matches_infos (P := InferenceError.SamePlace) (fun _ _ => .refl _)
      (hints.imp fun _ _ h => h.seededAlike) 0
    refine hseeded.imp_ok fun given given' hg hg' h => MaskedAt.aligned h fun i hi => ?_
    exact Run.getElem?_infos hg hg' (hsame i hi)
  have hnodes : List.Forall₂ (Node.InStep setup 0 InferenceError.SamePlace (MaskedAt v))
      g.nodes g.nodes := List.forall₂_same.2 fun n hn => inStep_of_masked 0 (hread n hn)
  have hrun := Run.inStep_infer (fun _ _ => .refl _) hinfos rfl rfl hnodes
  rcases hrun.cases_similar with ⟨r, r', hr, hr', ht, ho⟩ | h | h
  · refine .inl ⟨r, r', hr, hr', fun w hw => ?_, MaskedAt.eq_of_not_mem hout ho⟩
    have hat := ht w
    rw [Report.get?, Report.get?]
    generalize r.table.get? w = o, r'.table.get? w = o' at hat
    cases hat with
    | none => rfl
    | some hx => rw [hx.eq_of_ne hw]
  · exact .inr (.inl h)
  · exact .inr (.inr h)

end

/-! ### An integer that stays outside -/

/-- A tensor, and the sum with what a fused operator makes of an integer. -/
def shieldedGraph : Graph :=
  ((Graph.empty.withInput "x" ⟨0⟩).withInput "n" ⟨1⟩)
    |>.withNode "glow::FusionGroup" [⟨1⟩] (.fused (singleGraph "aten::relu")) [⟨2⟩]
    |>.withNode "aten::add" [⟨0⟩, ⟨2⟩] (.plain Keyed.empty) [⟨3⟩]
    |>.addOutput ⟨3⟩

theorem Graph.infer_masked_shieldedGraph :
    ∃ r r', (shieldedGraph.infer ⟨.builtin, .default⟩ [.tensor [2] .float, .int 3]).outcome
        = .ok r ∧
      (shieldedGraph.infer ⟨.builtin, .default⟩ [.tensor [2] .float, .int 7]).outcome = .ok r' ∧
      r.get? ⟨1⟩ = some (.scalar 3 .int64) ∧ r'.get? ⟨1⟩ = some (.scalar 7 .int64) ∧
      ∀ w, w ≠ ⟨1⟩ → r.get? w = r'.get? w := by
  have hints : List.Forall₂ RuntimeInput.SameButInts [.tensor [2] .float, .int 3]
      [.tensor [2] .float, .int 7] := .cons (.same _) (.cons (.int 3 7) .nil)
  have hsame : ∀ i : Nat, shieldedGraph.inputs[i]? ≠ some ⟨1⟩ →
      [.tensor [2] .float, RuntimeInput.int 3][i]? = [.tensor [2] .float, .int 7][i]? := by
    intro i hi
    match i with
    | 0 => rfl
    | 1 => exact absurd rfl hi
    | i + 2 => rfl
  rcases Graph.infer_masked ⟨.builtin, .default⟩ shieldedGraph ⟨1⟩ (by decide) (by decide) hints
    hsame with ⟨r, r', hr, hr', hrest, -⟩ | ⟨error, -, he, -⟩ | ⟨fault, hf, -⟩
  · refine ⟨r, r', hr, hr', ?_, ?_, hrest⟩
    · cases hr
      rfl
    · cases hr'
      rfl
  · cases he
  · cases hf

end ShapeFlow
