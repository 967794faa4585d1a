import ShapeFlow.Dims.Access
import ShapeFlow.Dims.Axis
import ShapeFlow.ValueInfo
import Mathlib.Data.List.Forall2
import Mathlib.Tactic.Common

/-! What a computation can come to. The faults of a computation in steps are those of its steps, so a
    bound on them is built up along the computation: word operations overflow and do nothing worse
    while divisors are not zero, and not even that where the exact result is a word; and readings of
    a shape that stay inside it do not fault at all. What a computation is refused for is bounded in
    the same way, and there words and shapes have no part: they fault, but never refuse.
    What holds of a result is built up likewise, and only the last step counts. -/

namespace ShapeFlow

variable {α β σ : Type} {P : Fault → Prop}

@[simp] theorem Outcome.ok_bind (a : α) (f : α → Outcome β) :
    (.ok a : Outcome α) >>= f = f a := rfl

@[simp] theorem Outcome.error_bind (halt : Halt) (f : α → Outcome β) :
    (.error halt : Outcome α) >>= f = .error halt := rfl

/-- Two steps in a row have a result if the first one has and the second one makes it of that. -/
theorem Outcome.bind_ok_iff {x : Outcome α} {f : α → Outcome β} {b : β} :
    x >>= f = .ok b ↔ ∃ a, x = .ok a ∧ f a = .ok b := by
  cases x with
  | error halt =>
    constructor
    · intro h
      cases h
    · rintro ⟨_, h, -⟩
      cases h
  | ok a =>
    constructor
    · exact fun h => ⟨a, rfl, h⟩
    · rintro ⟨_, h, hf⟩
      cases h
      exact hf

/-- Two steps in a row halt if the first one does, or the second one on what the first one made. -/
theorem Outcome.bind_error_iff {x : Outcome α} {f : α → Outcome β} {halt : Halt} :
    x >>= f = .error halt ↔ x = .error halt ∨ ∃ a, x = .ok a ∧ f a = .error halt := by
  cases x <;> simp

/-- A list worked through item by item comes to the results of its items, in their order. -/
theorem Outcome.mapM_ok_iff {f : α → Outcome β} {as : List α} {bs : List β} :
    as.mapM f = .ok bs ↔ List.Forall₂ (fun a b => f a = .ok b) as bs := by
  induction as generalizing bs with
  | nil => simp [pure, Except.pure, eq_comm]
  | cons a as ih =>
    rw [List.mapM_cons, bind_ok_iff, List.forall₂_cons_left_iff]
    simp only [bind_ok_iff, ih]
    constructor
    · rintro ⟨b, hb, bs, hbs, h⟩
      cases h
      exact ⟨b, bs, hb, hbs, rfl⟩
    · rintro ⟨b, bs, hb, hbs, rfl⟩
      exact ⟨b, hb, bs, hbs, rfl⟩

/-- All items have one result if the list comes to nothing else. -/
theorem Outcome.forall_ok_iff {f : α → Outcome β} {as : List α} {bs : List β} {b : β}
    (h : as.mapM f = .ok bs) : (∀ a ∈ as, f a = .ok b) ↔ ∀ b' ∈ bs, b' = b := by
  rw [mapM_ok_iff] at h
  induction h with
  | nil => simp
  | cons hab _ ih => simp [hab, ih]

/-- A list worked through item by item is worked through in parts. -/
theorem Outcome.mapM_append_ok_iff {f : α → Outcome β} {front back : List α} {made : List β} :
    (front ++ back).mapM f = .ok made ↔
      ∃ bs bs', front.mapM f = .ok bs ∧ back.mapM f = .ok bs' ∧ made = bs ++ bs' := by
  rw [List.mapM_append, Outcome.bind_ok_iff]
  simp only [Outcome.bind_ok_iff]
  constructor
  · rintro ⟨bs, hbs, bs', hbs', h⟩
    cases h
    exact ⟨bs, bs', hbs, hbs', rfl⟩
  · rintro ⟨bs, bs', hbs, hbs', rfl⟩
    exact ⟨bs, hbs, bs', hbs', rfl⟩

/-- A list worked through item by item halts at one of its items. -/
theorem Outcome.exists_of_mapM_error {f : α → Outcome β} {as : List α} {halt : Halt}
    (h : as.mapM f = .error halt) : ∃ a ∈ as, f a = .error halt := by
  induction as with
  | nil => cases h
  | cons a as ih =>
    rw [List.mapM_cons] at h
    rcases bind_error_iff.1 h with hitem | ⟨b, -, h⟩
    · exact ⟨a, List.mem_cons_self, hitem⟩
    · rcases bind_error_iff.1 h with hrest | ⟨bs, -, hdone⟩
      · obtain ⟨c, hc, hbad⟩ := ih hrest
        exact ⟨c, List.mem_cons_of_mem _ hc, hbad⟩
      · cases hdone

/-- A list can be worked through if each of its items can. -/
theorem Outcome.exists_mapM_ok {f : α → Outcome β} {as : List α}
    (h : ∀ a ∈ as, ∃ b, f a = .ok b) : ∃ bs, as.mapM f = .ok bs := by
  cases hm : as.mapM f with
  | ok bs => exact ⟨bs, rfl⟩
  | error halt =>
    obtain ⟨a, ha, hbad⟩ := exists_of_mapM_error hm
    obtain ⟨b, hb⟩ := h a ha
    cases hb.symm.trans hbad

/-- An item that halts stops the whole list, with its own halt if no item has another one. -/
theorem Outcome.mapM_error_of_mem {f : α → Outcome β} {as : List α} {a : α} {halt : Halt}
    (ha : a ∈ as) (hbad : f a = .error halt)
    (hall : ∀ b ∈ as, ∀ halt', f b = .error halt' → halt' = halt) :
    as.mapM f = .error halt := by
  cases hm : as.mapM f with
  | ok bs =>
    obtain ⟨front, back, rfl⟩ := List.append_of_mem ha
    obtain ⟨-, made, -, hback, -⟩ := mapM_append_ok_iff.1 hm
    obtain ⟨b, -, hb, -⟩ := List.forall₂_cons_left_iff.1 (mapM_ok_iff.1 hback)
    cases hb.symm.trans hbad
  | error halt' =>
    obtain ⟨b, hb, hhalt⟩ := exists_of_mapM_error hm
    rw [hall b hb halt' hhalt]

/-- A fold that halts does so at one of its steps. -/
theorem Outcome.exists_of_foldlM_error {f : σ → α → Outcome σ} {as : List α} {s : σ} {halt : Halt}
    (h : as.foldlM f s = .error halt) : ∃ s', ∃ a ∈ as, f s' a = .error halt := by
  induction as generalizing s with
  | nil => cases h
  | cons a as ih =>
    rw [List.foldlM_cons] at h
    rcases bind_error_iff.1 h with hstep | ⟨s', -, hrest⟩
    · exact ⟨s, a, List.mem_cons_self, hstep⟩
    · obtain ⟨s'', b, hb, hbad⟩ := ih hrest
      exact ⟨s'', b, List.mem_cons_of_mem _ hb, hbad⟩

/-- All faults of the computation are of one sort. -/
def FaultsOnly (P : Fault → Prop) (x : Outcome α) : Prop := ∀ fault, x = giveUp fault → P fault

namespace FaultsOnly

theorem ok (a : α) : FaultsOnly P (.ok a : Outcome α) := fun _ h => by cases h

theorem pure (a : α) : FaultsOnly P (Pure.pure a : Outcome α) := ok a

theorem refuse (error : RuleError) : FaultsOnly P (ShapeFlow.refuse error : Outcome α) :=
  fun _ h => by cases h

theorem imp {Q : Fault → Prop} {x : Outcome α} (hx : FaultsOnly P x) (h : ∀ fault, P fault → Q fault) :
    FaultsOnly Q x := fun fault he => h fault (hx fault he)

/-- Two steps fault as the first does, or as the second does on what the first made. -/
theorem bind {x : Outcome α} {f : α → Outcome β} (hx : FaultsOnly P x)
    (hf : ∀ a, x = .ok a → FaultsOnly P (f a)) : FaultsOnly P (x >>= f) := by
  cases x with
  | ok a => exact hf a rfl
  | error halt =>
    intro fault h
    cases halt with
    | refused error => cases h
    | faulted fault' => cases h; exact hx fault rfl

theorem map {x : Outcome α} (hx : FaultsOnly P x) (f : α → β) : FaultsOnly P (x.map f) := by
  cases x with
  | ok a => exact ok (f a)
  | error halt => exact fun fault h => hx fault (by cases h; rfl)

theorem mapM {f : α → Outcome β} {as : List α} (hf : ∀ a ∈ as, FaultsOnly P (f a)) :
    FaultsOnly P (as.mapM f) := by
  induction as with
  | nil => exact ok []
  | cons a as ih =>
    rw [List.mapM_cons]
    refine bind (hf a (by simp)) fun b _ => ?_
    exact bind (ih fun c hc => hf c (List.mem_cons_of_mem _ hc)) fun bs _ => ok _

/-- A fold faults as its steps do, on what they make of each other. -/
theorem foldlM {f : σ → α → Outcome σ} {I : σ → Prop} (hf : ∀ s a, I s → FaultsOnly P (f s a))
    (hI : ∀ s a s', I s → f s a = .ok s' → I s') (as : List α) {s : σ} (hs : I s) :
    FaultsOnly P (as.foldlM f s) := by
  induction as generalizing s with
  | nil => exact ok s
  | cons a as ih =>
    rw [List.foldlM_cons]
    exact bind (hf s a hs) fun s' h => ih (hI s a s' hs h)

end FaultsOnly

/-- Computations that come to the same results and do not fault both come to one, or both are refused. -/
theorem Outcome.both_ok_or_refused {x y : Outcome α} (h : ∀ a, x = .ok a ↔ y = .ok a)
    (hx : FaultsOnly (fun _ => False) x) (hy : FaultsOnly (fun _ => False) y) :
    (∃ a, x = .ok a ∧ y = .ok a) ∨
      ∃ error error', x = ShapeFlow.refuse error ∧ y = ShapeFlow.refuse error' := by
  match x, y with
  | .ok a, y => exact .inl ⟨a, rfl, (h a).1 rfl⟩
  | .error halt, .ok b => exact absurd ((h b).2 rfl) (by simp)
  | .error (.refused error), .error (.refused error') => exact .inr ⟨error, error', rfl, rfl⟩
  | .error (.faulted fault), .error _ => exact (hx fault rfl).elim
  | .error (.refused _), .error (.faulted fault) => exact (hy fault rfl).elim

/-- All that the computation is refused for is of one sort. -/
def RefusesOnly (R : RuleError → Prop) (x : Outcome α) : Prop := ∀ error, x = refuse error → R error

namespace RefusesOnly

variable {R : RuleError → Prop}

theorem ok (a : α) : RefusesOnly R (.ok a : Outcome α) := fun _ h => by cases h

theorem pure (a : α) : RefusesOnly R (Pure.pure a : Outcome α) := ok a

theorem giveUp (fault : Fault) : RefusesOnly R (ShapeFlow.giveUp fault : Outcome α) :=
  fun _ h => by cases h

theorem refuse {error : RuleError} (h : R error) :
    RefusesOnly R (ShapeFlow.refuse error : Outcome α) := fun _ he => by cases he; exact h

theorem imp {S : RuleError → Prop} {x : Outcome α} (hx : RefusesOnly R x)
    (h : ∀ error, R error → S error) : RefusesOnly S x := fun error he => h error (hx error he)

/-- Two steps are refused as the first is, or as the second is. -/
theorem bind {x : Outcome α} {f : α → Outcome β} (hx : RefusesOnly R x)
    (hf : ∀ a, RefusesOnly R (f a)) : RefusesOnly R (x >>= f) := by
  intro error h
  rcases Outcome.bind_error_iff.1 h with h | ⟨a, -, h⟩
  · exact hx error h
  · exact hf a error h

theorem mapM {f : α → Outcome β} (hf : ∀ a, RefusesOnly R (f a)) (as : List α) :
    RefusesOnly R (as.mapM f) := by
  intro error h
  obtain ⟨a, -, h⟩ := Outcome.exists_of_mapM_error h
  exact hf a error h

theorem foldlM {f : σ → α → Outcome σ} (hf : ∀ s a, RefusesOnly R (f s a)) (as : List α) (s : σ) :
    RefusesOnly R (as.foldlM f s) := by
  intro error h
  obtain ⟨s', a, -, h⟩ := Outcome.exists_of_foldlM_error h
  exact hf s' a error h

end RefusesOnly

/-- Every result of the computation has a property. -/
def Ensures (Q : α → Prop) (x : Outcome α) : Prop := ∀ a, x = .ok a → Q a

namespace Ensures

variable {Q : α → Prop} {R : β → Prop}

theorem pure {a : α} (h : Q a) : Ensures Q (Pure.pure a : Outcome α) :=
  fun _ he => by cases he; exact h

theorem refuse (error : RuleError) : Ensures Q (ShapeFlow.refuse error : Outcome α) :=
  fun _ h => by cases h

theorem bind {x : Outcome α} {f : α → Outcome β} (hf : ∀ a, x = .ok a → Ensures R (f a)) :
    Ensures R (x >>= f) := by
  intro b h
  obtain ⟨a, ha, hb⟩ := Outcome.bind_ok_iff.1 h
  exact hf a ha b hb

/-- A list worked through item by item keeps its length. -/
theorem mapM (f : α → Outcome β) (as : List α) :
    Ensures (fun bs => bs.length = as.length) (as.mapM f) := fun _ h =>
  (Outcome.mapM_ok_iff.1 h).length_eq.symm

/-- Items worked out one by one have a property that each of them comes with. -/
theorem forall_mapM {f : α → Outcome β} {as : List α} (hf : ∀ a ∈ as, Ensures R (f a)) :
    Ensures (fun bs => ∀ b ∈ bs, R b) (as.mapM f) := by
  induction as with
  | nil => exact pure (by simp)
  | cons a as ih =>
    rw [List.mapM_cons]
    refine bind fun b hb => bind fun bs hbs => pure ?_
    intro c hc
    rcases List.mem_cons.1 hc with rfl | hc
    · exact hf a (by simp) c hb
    · exact ih (fun d hd => hf d (List.mem_cons_of_mem _ hd)) bs hbs c hc

/-- What every step of a fold keeps holds at its end. -/
theorem foldlM {f : σ → α → Outcome σ} {I : σ → Prop} {as : List α}
    (hf : ∀ s, ∀ a ∈ as, I s → Ensures I (f s a)) {s : σ} (hs : I s) :
    Ensures I (as.foldlM f s) := by
  induction as generalizing s with
  | nil => exact pure hs
  | cons a as ih =>
    rw [List.foldlM_cons]
    refine bind fun s' h => ih (fun s b hb => hf s b (List.mem_cons_of_mem _ hb)) ?_
    exact hf s a (by simp) hs s' h

end Ensures

/-! ### Words and shapes -/

/-- A result that is no word. -/
def Fault.IsOverflow (fault : Fault) : Prop := ∃ op, fault = .overflow op

namespace Word

theorem faultsOnly_checked (op : WordOp) (n : Int) : FaultsOnly Fault.IsOverflow (checked op n) := by
  intro fault h
  rw [checked] at h
  split at h
  · cases h
  · cases h; exact ⟨op, rfl⟩

theorem refusesOnly_checked {R : RuleError → Prop} (op : WordOp) (n : Int) :
    RefusesOnly R (checked op n) := by
  rw [checked]
  split
  · exact .pure n
  · exact .giveUp _

/-- An exact result that is a word is let through. -/
theorem faultsOnly_checked_of_fits {op : WordOp} {n : Int} (h : Fits n) :
    FaultsOnly P (checked op n) := by
  rw [checked_of_fits h]
  exact .ok n

theorem faultsOnly_add (a b : Int) : FaultsOnly Fault.IsOverflow (add a b) :=
  faultsOnly_checked .add _

theorem faultsOnly_sub (a b : Int) : FaultsOnly Fault.IsOverflow (sub a b) :=
  faultsOnly_checked .sub _

theorem faultsOnly_neg (a : Int) : FaultsOnly Fault.IsOverflow (neg a) :=
  faultsOnly_checked .neg _

theorem faultsOnly_div (a : Int) {b : Int} (hb : b ≠ 0) :
    FaultsOnly Fault.IsOverflow (div a b) := by
  rw [div, if_neg hb]
  exact faultsOnly_checked .div _

/-- A quotient by a positive number is no larger than what is divided, and has its sign. -/
theorem fits_tdiv {a b : Int} (ha : Fits a) (hb : 0 < b) : Fits (a.tdiv b) := by
  have habs : (a.tdiv b).natAbs ≤ a.natAbs := Int.natAbs_tdiv_le_natAbs a b
  rw [fits_iff] at ha ⊢
  rcases Int.le_total 0 a with h | h
  · have hsign : 0 ≤ a.tdiv b := Int.tdiv_nonneg h (Int.le_of_lt hb)
    omega
  · have hsign : 0 ≤ (-a).tdiv b := Int.tdiv_nonneg (Int.neg_nonneg.2 h) (Int.le_of_lt hb)
    rw [Int.neg_tdiv] at hsign
    omega

end Word

namespace Dims

variable {dims : Dims} {i j : Nat}

theorem faultsOnly_entry (hi : i < dims.length) : FaultsOnly P (entry dims i) := by
  rw [entry_of_lt hi]
  exact .ok _

theorem faultsOnly_replace (hi : i < dims.length) (size : Int) :
    FaultsOnly P (replace dims i size) := by
  rw [replace_of_lt size hi]
  exact .ok _

theorem refusesOnly_entry {R : RuleError → Prop} (dims : Dims) (i : Nat) :
    RefusesOnly R (entry dims i) := by
  rw [entry]
  split
  · exact .pure _
  · exact .giveUp _

theorem refusesOnly_replace {R : RuleError → Prop} (dims : Dims) (i : Nat) (size : Int) :
    RefusesOnly R (replace dims i size) := by
  rw [replace]
  split
  · exact .pure _
  · exact .giveUp _

theorem length_of_replace {size : Int} {dims' : Dims} (h : replace dims i size = .ok dims') :
    dims'.length = dims.length := by
  rw [replace] at h
  split at h
  · cases h; simp
  · cases h

theorem faultsOnly_exchange (hi : i < dims.length) (hj : j < dims.length) :
    FaultsOnly P (exchange dims i j) := by
  refine .bind (faultsOnly_entry hi) fun a _ => .bind (faultsOnly_entry hj) fun b _ => ?_
  exact .bind (faultsOnly_replace hi b) fun dims' h =>
    faultsOnly_replace (by rw [length_of_replace h]; exact hj) a

theorem faultsOnly_insertAt (hi : i ≤ dims.length) (size : Int) :
    FaultsOnly P (insertAt dims i size) := by
  rw [insertAt_of_le size hi]
  exact .ok _

theorem faultsOnly_between {lo hi : Nat} (hl : lo ≤ hi) (hh : hi ≤ dims.length) :
    FaultsOnly P (between dims lo hi) := by
  rw [between_of_le hl hh]
  exact .ok _

theorem faultsOnly_count : FaultsOnly P (count dims) := by
  rw [count]
  split
  · exact .pure _
  · exact .refuse _

end Dims

/-- A position that an axis number names is inside the rank. -/
theorem Axis.lt_of_resolve {rank i : Nat} {axis : Int} (h : resolve rank axis = .ok i) :
    i < rank := by
  obtain ⟨lowest, hn, h⟩ := Outcome.bind_ok_iff.1 h
  obtain ⟨-, rfl⟩ := Word.checked_eq_ok_iff.1 hn
  split at h
  · cases h
  · split at h
    · cases h
      omega
    · obtain ⟨position, ha, h⟩ := Outcome.bind_ok_iff.1 h
      obtain ⟨-, rfl⟩ := Word.checked_eq_ok_iff.1 ha
      cases h
      omega

/-- A number that names no axis is refused for that. -/
theorem Axis.refusesOnly_resolve (rank : Nat) (axis : Int) :
    RefusesOnly (· = .invalidValue (.axisRange axis rank)) (resolve rank axis) := by
  refine .bind (Word.refusesOnly_checked _ _) fun lowest => ?_
  split
  · exact .refuse rfl
  · split
    · exact .pure _
    · exact .bind (Word.refusesOnly_checked _ _) fun _ => .pure _

/-- Resolving an axis refuses or succeeds: the rank is at most the greatest word, and what is added
    to it lies between its negative and zero. -/
theorem Axis.faultsOnly_resolve (rank : Nat) (axis : Int) : FaultsOnly P (resolve rank axis) := by
  refine .bind (Word.faultsOnly_checked_of_fits ?_) fun lowest hl => ?_
  · rw [Word.fits_iff, Word.greatest]
    omega
  obtain ⟨-, rfl⟩ := Word.checked_eq_ok_iff.1 hl
  split
  · exact .refuse _
  · split
    · exact .pure _
    · next hin hneg =>
      refine .bind (Word.faultsOnly_checked_of_fits ?_) fun _ _ => .pure _
      rw [Word.greatest] at hin ⊢
      rw [Word.fits_iff]
      omega

/-! ### Readings of operands -/

namespace ValueInfo

variable (x : ValueInfo)

theorem faultsOnly_asTensor : FaultsOnly P x.asTensor := by
  rw [asTensor]
  split
  · exact .pure _
  · exact .refuse _

/-- Only a tensor list does not read as a tensor. -/
theorem asTensor_error {x : ValueInfo} {halt : Halt} (h : x.asTensor = .error halt) :
    halt = .refused (.typeMismatch "tensor" "tensor list") := by
  obtain ⟨content, elem⟩ := x
  cases content <;> cases h
  rfl

/-- What does not read as an integer is refused for its kind. -/
theorem asInt_error {x : ValueInfo} {halt : Halt} (h : x.asInt = .error halt) :
    halt = .refused (.typeMismatch "int" x.kind) := by
  unfold asInt at h
  split at h
  · cases h
  · cases h
    rfl

theorem faultsOnly_asTensorList : FaultsOnly P x.asTensorList := by
  rw [asTensorList]
  split
  · exact .pure _
  · exact .refuse _

theorem faultsOnly_asInts : FaultsOnly P x.asInts := by
  rw [asInts]
  split
  · exact .pure _
  · exact .refuse _

theorem faultsOnly_asInt : FaultsOnly P x.asInt := by
  rw [asInt]
  split
  · exact .pure _
  · exact .refuse _

end ValueInfo

end ShapeFlow
