import ShapeFlow.Proofs.Walk

/-! Walks under other names. Nodes may read and make their wires under new names: if what one table
    knows of a wire another knows of its new name, a visit of the renamed node does to the second
    table what a visit of the node does to the first, and fails with the same error. Two wires may come
    to share a name, as long as a wire that a node makes shares its name with none. -/

namespace ShapeFlow

/-- What one table knows of a wire, the other knows of its new name. Only some wires count. -/
def Table.Follows (counts : Wire → Prop) (ρ : Wire → Wire) (t t' : Table) : Prop :=
  ∀ w, counts w → t'.get? (ρ w) = t.get? w

/-- The node that reads and makes its wires under new names. -/
def Node.rewire (read make : Wire → Wire) (n : Node) : Node :=
  { n with inputs := n.inputs.map read, outputs := n.outputs.map make }

@[simp] theorem Node.rewire_id (n : Node) : n.rewire id id = n := by
  cases n
  simp [Node.rewire]

theorem outputsOf_map_rewire (read make : Wire → Wire) (nodes : List Node) :
    outputsOf (nodes.map (Node.rewire read make)) = (outputsOf nodes).map make := by
  simp [outputsOf, List.flatMap_map, List.map_flatMap, Node.rewire]

/-- The new names of what a node makes are shared with no other wire that counts. -/
structure Rewires (counts : Wire → Prop) (ρ make : Wire → Wire) (n : Node) : Prop where
  inputs : ∀ w ∈ n.inputs, counts w
  outputs : ∀ o ∈ n.outputs, counts o
  make_eq : ∀ o ∈ n.outputs, make o = ρ o
  apart : ∀ o ∈ n.outputs, ∀ w, counts w → ρ w = ρ o → w = o

/-- Results that are there together and equal. -/
theorem Matches.of_ok_iff {ε ζ α : Type} {x : Except ε α} {y : Except ζ α}
    (h : ∀ a, x = .ok a ↔ y = .ok a) : Matches (fun _ _ => True) Eq x y := by
  cases x with
  | ok a => rw [(h a).1 rfl]; exact .ok rfl
  | error e =>
    cases y with
    | ok b => cases (h b).2 rfl
    | error e' => exact .error trivial

namespace Table.Follows

variable {counts : Wire → Prop} {ρ make : Wire → Wire} {t t' : Table}

/-- Wires read alike under their new names. -/
theorem readAll_ok_iff (h : Follows counts ρ t t') {ws : List Wire} (hw : ∀ w ∈ ws, counts w)
    (infos : List ValueInfo) :
    t.readAll ws = .ok infos ↔ t'.readAll (ws.map ρ) = .ok infos := by
  rw [Table.readAll_ok_iff, Table.readAll_ok_iff, List.map_map]
  rw [List.map_congr_left fun w hm => (h w (hw w hm)).symm]
  rfl

/-- Filling a wire and its new name keeps tables in step. -/
theorem insert (h : Follows counts ρ t t') {o : Wire} (ho : counts o)
    (hapart : ∀ w, counts w → ρ w = ρ o → w = o) (info : ValueInfo) :
    Matches (fun _ _ => True) (Follows counts ρ) (t.insert o info) (t'.insert (ρ o) info) := by
  have hget := h o ho
  cases hn : t.get? o with
  | none =>
    have h₁ := insert_of_get?_none info hn
    have h₂ := insert_of_get?_none info (hget.trans hn)
    rw [h₁, h₂]
    refine .ok fun w hw => ?_
    rw [get?_insert h₁, get?_insert h₂, h w hw]
    by_cases he : o = w
    · rw [if_pos he, if_pos (congrArg ρ he)]
    · rw [if_neg he, if_neg fun hρ => he (hapart w hw hρ.symm).symm]
  | some info' =>
    have hn' : t'.get? (ρ o) = some info' := hget.trans hn
    rw [Table.insert, Table.insert, hn, hn']
    exact .error trivial

/-- Filling wires and their new names keeps tables in step. -/
theorem insertAll (h : Follows counts ρ t t') {ps : List (Wire × ValueInfo)}
    (hp : ∀ p ∈ ps, counts p.1 ∧ make p.1 = ρ p.1 ∧ ∀ w, counts w → ρ w = ρ p.1 → w = p.1) :
    Matches (fun _ _ => True) (Follows counts ρ) (t.insertAll ps)
      (t'.insertAll (ps.map fun p => (make p.1, p.2))) := by
  induction ps generalizing t t' with
  | nil => exact .ok h
  | cons p ps ih =>
    obtain ⟨hc, hm, ha⟩ := hp p (by simp)
    show Matches _ _ ((t.insert p.1 p.2).bind fun t => t.insertAll ps)
      ((t'.insert (make p.1) p.2).bind fun t => t.insertAll _)
    rw [hm]
    generalize hx : t.insert p.1 p.2 = x, hy : t'.insert (ρ p.1) p.2 = y
    have hxy : Matches _ _ x y := hx ▸ hy ▸ h.insert hc ha p.2
    cases hxy with
    | ok h₁ => exact ih h₁ fun q hq => hp q (List.mem_cons_of_mem _ hq)
    | error => exact .error trivial

end Table.Follows

/-! ### Visits and walks -/

section

variable (setup : Setup) (d d' : Nat) {counts : Wire → Prop} {ρ make : Wire → Wire}

/-- A renamed node does to the one table what the node does to the other. -/
theorem Node.matches_visit_rewire {n : Node} (hn : Rewires counts ρ make n) {t t' : Table}
    (h : t.Follows counts ρ t') :
    Matches Stop.Alike (Table.Follows counts ρ) (n.visit setup d t).outcome
      ((n.rewire ρ make).visit setup d' t').outcome := by
  rw [Node.visit_eq, Node.visit_eq]
  refine Traced.matches_bind (R := Eq)
    (Traced.matches_ofFault (Matches.of_ok_iff (h.readAll_ok_iff hn.inputs))) ?_
  rintro given _ rfl
  refine Traced.matches_bind (R := Eq) (Matches.of_eq (E := Stop.Alike) .refl ?_) ?_
  · rw [Body.outcome_make setup d d']
    simp only [Node.rewire, Node.label, List.length_map]
  rintro made _ rfl
  have hzip : (n.outputs.map make).zip made
      = (n.outputs.zip made).map fun p => (make p.1, p.2) := by
    rw [List.zip_map_left]
    rfl
  simp only [Walk.store, Node.rewire, List.length_map, hzip]
  split
  · exact .error (.refl _)
  · refine Traced.matches_ofFault (h.insertAll fun p hp => ?_)
    have ho := (List.of_mem_zip hp).1
    exact ⟨hn.outputs _ ho, hn.make_eq _ ho, hn.apart _ ho⟩

/-- Renamed nodes do to the one table what the nodes do to the other. -/
theorem matches_walkNodes_rewire {nodes : List Node}
    (hn : ∀ n ∈ nodes, Rewires counts ρ make n) {t t' : Table} (h : t.Follows counts ρ t') :
    Matches Stop.Alike (Table.Follows counts ρ) (walkNodes setup d nodes t).outcome
      (walkNodes setup d' (nodes.map (Node.rewire ρ make)) t').outcome := by
  induction nodes generalizing t t' with
  | nil => exact .ok h
  | cons n nodes ih =>
    exact Traced.matches_bind (Node.matches_visit_rewire setup d d' (hn n (by simp)) h)
      fun t₁ t₁' h₁ => ih (fun m hm => hn m (List.mem_cons_of_mem _ hm)) h₁

/-- A walk sees nothing of a table but what it knows. -/
theorem matches_walkNodes (nodes : List Node) {t t' : Table}
    (h : t.Follows (fun _ => True) id t') :
    Matches Stop.Alike (Table.Follows (fun _ => True) id)
      (walkNodes setup d nodes t).outcome (walkNodes setup d' nodes t').outcome := by
  have hn : ∀ n ∈ nodes, Rewires (fun _ => True) id id n := fun _ _ =>
    ⟨fun _ _ => trivial, fun _ _ => trivial, fun _ _ => rfl, fun _ _ _ _ he => he⟩
  have hw := matches_walkNodes_rewire setup d d' hn h
  rwa [show Node.rewire id id = id from funext Node.rewire_id, List.map_id] at hw

/-- A walk starts alike however many slots its table has. -/
theorem matches_start (count count' : Nat) (inputs : List Wire) (given : List ValueInfo) :
    Matches Stop.Alike (Table.Follows (fun _ => True) id)
      (Walk.start count inputs given).outcome (Walk.start count' inputs given).outcome := by
  have hempty : (Table.ofSize count).Follows (fun _ => True) id (Table.ofSize count') :=
    fun w _ => by simp
  unfold Walk.start
  split
  · refine Traced.matches_ofFault ?_
    have hp : ∀ p ∈ inputs.zip given,
        True ∧ id p.1 = id p.1 ∧ ∀ w : Wire, True → id w = id p.1 → w = p.1 :=
      fun _ _ => ⟨trivial, rfl, fun _ _ he => he⟩
    simpa using hempty.insertAll hp
  · exact .error (.refl _)

end

end ShapeFlow
