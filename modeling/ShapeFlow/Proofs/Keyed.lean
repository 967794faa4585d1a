import ShapeFlow.Keyed
import Mathlib.Data.List.Induction
import Mathlib.Data.List.Nodup
import Mathlib.Tactic.Common

/-! Settings in a row. A setting is seen under its own name alone and never moves a name, so after any
    number of them the last one under a name is found there, and the names stand in the order in which
    they first came, each once. As no name comes twice, the names in their order and what is found under
    each are all that there is to tell: values are equal exactly if they agree on both. -/

namespace ShapeFlow.Keyed

variable {α : Type} {k : Keyed α} {pairs : List (String × α)} {name : String}

theorem setAll_cons (k : Keyed α) (p : String × α) (pairs : List (String × α)) :
    k.setAll (p :: pairs) = (k.set p.1 p.2).setAll pairs := rfl

theorem setAll_append (k : Keyed α) (as bs : List (String × α)) :
    k.setAll (as ++ bs) = (k.setAll as).setAll bs := List.foldl_append

/-! ### What is found -/

/-- The value that a name is set to last. -/
def latest? (pairs : List (String × α)) (name : String) : Option α := pairs.reverse.lookup name

/-- A last setting has no setting of the name after it. -/
theorem latest?_eq_some_iff {value : α} :
    latest? pairs name = some value ↔
      ∃ before after, pairs = before ++ (name, value) :: after ∧ ∀ q ∈ after, q.1 ≠ name := by
  rw [latest?, List.lookup_eq_some_iff]
  constructor
  · rintro ⟨back, front, hsplit, hback⟩
    refine ⟨front.reverse, back.reverse, ?_, ?_⟩
    · rw [← List.reverse_reverse pairs, hsplit]
      simp
    · intro q hq he
      simpa [he] using hback q (List.mem_reverse.1 hq)
  · rintro ⟨before, after, rfl, hafter⟩
    refine ⟨after.reverse, before.reverse, by simp, ?_⟩
    intro q hq
    simpa using (hafter q (List.mem_reverse.1 hq)).symm

/-- A name has no last setting if it is not set at all. -/
theorem latest?_eq_none_iff : latest? pairs name = none ↔ ∀ p ∈ pairs, p.1 ≠ name := by
  rw [latest?, List.lookup_eq_none_iff]
  constructor
  · intro h p hp he
    simpa [he] using h p (List.mem_reverse.2 hp)
  · intro h p hp
    simpa using (h p (List.mem_reverse.1 hp)).symm

/-- The first setting of a name counts if none of the others does. -/
theorem latest?_cons (p : String × α) (pairs : List (String × α)) (name : String) :
    latest? (p :: pairs) name
      = (latest? pairs name).or (if p.1 = name then some p.2 else none) := by
  obtain ⟨key, value⟩ := p
  rw [latest?, List.reverse_cons, List.lookup_append, List.lookup_cons, latest?]
  by_cases hk : key = name
  · simp [hk]
  · have hk' : (name == key) = false := beq_false_of_ne (Ne.symm hk)
    simp [hk, hk']

/-- What is found under a name is what it was set to last, or else what was there before. -/
theorem get?_setAll (k : Keyed α) (pairs : List (String × α)) (name : String) :
    (k.setAll pairs).get? name = (latest? pairs name).or (k.get? name) := by
  induction pairs generalizing k with
  | nil => rfl
  | cons p pairs ih =>
    rw [setAll_cons, ih, get?_set, latest?_cons, Option.or_assoc]
    split <;> rfl

/-- A name that is not set keeps what it has. -/
theorem get?_setAll_of_ne (h : ∀ p ∈ pairs, p.1 ≠ name) :
    (k.setAll pairs).get? name = k.get? name := by
  rw [get?_setAll, latest?_eq_none_iff.2 h, Option.none_or]

/-- What is set last under a name is found there. -/
theorem get?_setAll_of_last {before after : List (String × α)} {p : String × α}
    (h : ∀ q ∈ after, q.1 ≠ p.1) : (k.setAll (before ++ p :: after)).get? p.1 = some p.2 := by
  rw [get?_setAll, latest?_eq_some_iff.2 ⟨before, after, rfl, h⟩, Option.some_or]

/-- What is found after some settings was there before or is one of them. -/
theorem of_get?_setAll {value : α} (h : (k.setAll pairs).get? name = some value) :
    k.get? name = some value ∨ (name, value) ∈ pairs := by
  rw [get?_setAll, Option.or_eq_some_iff] at h
  rcases h with h | ⟨-, h⟩
  · obtain ⟨before, after, rfl, -⟩ := latest?_eq_some_iff.1 h
    exact .inr (List.mem_append_right _ (.head _))
  · exact .inl h

/-! ### The names -/

/-- The names in the order in which they first come. -/
def arrivals (pairs : List (String × α)) : List String := (pairs.map (·.1)).eraseDups

/-- One more setting brings a new name last and a known one not at all. -/
theorem arrivals_concat (pairs : List (String × α)) (p : String × α) :
    arrivals (pairs ++ [p])
      = if p.1 ∈ arrivals pairs then arrivals pairs else arrivals pairs ++ [p.1] := by
  rw [arrivals, arrivals, List.map_append, List.eraseDups_append]
  by_cases hp : p.1 ∈ pairs.map (·.1)
  · have hknown : ([p].map (·.1)).removeAll (pairs.map (·.1)) = [] := by
      simpa [List.removeAll] using hp
    rw [if_pos (List.mem_eraseDups.2 hp), hknown]
    simp
  · have hnew : ([p].map (·.1)).removeAll (pairs.map (·.1)) = [p.1] := by
      simpa [List.removeAll] using hp
    rw [if_neg fun h => hp (List.mem_eraseDups.1 h), hnew]
    rfl

theorem names_setAll_empty (pairs : List (String × α)) :
    (empty.setAll pairs).names = arrivals pairs := by
  induction pairs using List.reverseRecOn with
  | nil => rfl
  | append_singleton pairs p ih =>
    have hset : empty.setAll (pairs ++ [p]) = (empty.setAll pairs).set p.1 p.2 :=
      setAll_append empty pairs [p]
    rw [hset, names_set, ih, arrivals_concat]

theorem mem_names_setAll :
    name ∈ (k.setAll pairs).names ↔ name ∈ k.names ∨ name ∈ pairs.map (·.1) := by
  induction pairs generalizing k with
  | nil => simp [setAll]
  | cons p pairs ih =>
    have hset : name ∈ (k.set p.1 p.2).names ↔ name ∈ k.names ∨ name = p.1 := by
      rw [names_set]
      split
      · next hp =>
        constructor
        · exact .inl
        · rintro (h | rfl)
          · exact h
          · exact hp
      · simp
    rw [setAll_cons, ih, hset]
    simp [or_assoc]

/-- Names that do not repeat still do not after any settings. -/
theorem nodup_names_setAll (h : k.names.Nodup) : (k.setAll pairs).names.Nodup := by
  induction pairs generalizing k with
  | nil => exact h
  | cons p pairs ih =>
    refine ih (k := k.set p.1 p.2) ?_
    rw [names_set]
    split
    · exact h
    · next hp =>
      refine List.nodup_append.2 ⟨h, by simp, ?_⟩
      rintro a ha b hb rfl
      rw [List.mem_singleton] at hb
      exact hp (hb ▸ ha)

theorem isSome_get?_iff : (k.get? name).isSome ↔ name ∈ k.names := by
  rw [get?, names]
  induction k.entries with
  | nil => simp [findIn]
  | cons p entries ih =>
    rw [findIn, List.map_cons, List.mem_cons]
    by_cases hp : p.1 = name
    · simp [hp]
    · simp [hp, Ne.symm hp, ih]

theorem size_eq_length_names (k : Keyed α) : k.size = k.names.length := by simp [size, names]

/-! ### Equality -/

theorem findIn_of_not_mem {entries : List (String × α)} (h : name ∉ entries.map (·.1)) :
    findIn name entries = none :=
  Option.not_isSome_iff_eq_none.1 fun hs => h ((isSome_get?_iff (k := ⟨entries⟩)).1 hs)

/-- Where names do not repeat, pairs are equal one by one if the names are equal and what is found under
    each of them is. -/
theorem beq_entries_iff [BEq α] {as bs : List (String × α)} (h : (as.map (·.1)).Nodup) :
    (as == bs) = true ↔
      as.map (·.1) = bs.map (·.1) ∧ ∀ name, (findIn name as == findIn name bs) = true := by
  induction as generalizing bs with
  | nil => cases bs <;> simp [findIn]
  | cons p as ih =>
    cases bs with
    | nil => simp
    | cons q bs =>
      rw [List.map_cons, List.nodup_cons] at h
      have hpair : (p == q) = true ↔ p.1 = q.1 ∧ (p.2 == q.2) = true := by
        rw [← beq_iff_eq (a := p.1), ← Bool.and_eq_true]
        rfl
      rw [List.cons_beq_cons, Bool.and_eq_true, hpair, ih h.2, List.map_cons, List.map_cons,
        List.cons.injEq]
      constructor
      · rintro ⟨⟨hname, hvalue⟩, hnames, hfind⟩
        refine ⟨⟨hname, hnames⟩, fun name => ?_⟩
        rw [findIn, findIn, ← hname]
        split
        · exact hvalue
        · exact hfind name
      · rintro ⟨⟨hname, hnames⟩, hfind⟩
        have hvalue : (p.2 == q.2) = true := by
          have hfirst := hfind p.1
          rwa [findIn, findIn, if_pos rfl, if_pos hname.symm, Option.some_beq_some] at hfirst
        refine ⟨⟨hname, hvalue⟩, hnames, fun name => ?_⟩
        by_cases hp : p.1 = name
        · -- the name of the first pair is not found behind it
          rw [findIn_of_not_mem (hp ▸ h.1), findIn_of_not_mem (hnames ▸ hp ▸ h.1)]
          rfl
        · have hrest := hfind name
          rwa [findIn, findIn, if_neg hp, if_neg (hname ▸ hp)] at hrest

/-- Values with names that do not repeat are equal exactly if they agree on the names, in their order, and
    on what is found under each. -/
theorem beq_iff [BEq α] {k k' : Keyed α} (h : k.names.Nodup) :
    (k == k') = true ↔
      k.names = k'.names ∧ ∀ name, (k.get? name == k'.get? name) = true :=
  beq_entries_iff h

end ShapeFlow.Keyed
