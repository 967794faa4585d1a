import ShapeFlow.Proofs.Outcome
import ShapeFlow.Rule.Reshape
import Mathlib.Algebra.Order.BigOperators.GroupWithZero.List
import Mathlib.Algebra.Order.Ring.Int

/-! What counting and scanning come to. A count goes through where every product on the way from the left is
    a word. A target shape is scanned in one pass that looks for three things at once: sizes that
    are too small, a second `-1`, and a product of the other sizes that is no word. Leaving the `-1`
    out, the last of the three is a count, so a scan goes through for the shapes that pass all three,
    and a shape that fails one of them is refused for its value. -/

namespace ShapeFlow

namespace Dims

/-- The product of the sizes, taken from the left, is a word on the way and at the end. -/
def Counted (dims : Dims) : Prop := ∀ front, front <+: dims → Word.Fits front.prod

variable {dims : Dims}

/-- Going on from a product, counting goes through where all products that follow are words. -/
theorem foldlM_mul?_eq_some_iff {m n : Int} (hm : Word.Fits m) :
    dims.foldlM Word.mul? m = some n ↔
      (∀ front, front <+: dims → Word.Fits (m * front.prod)) ∧ m * dims.prod = n := by
  induction dims generalizing m with
  | nil => simp [hm]
  | cons size dims ih =>
    simp only [List.foldlM_cons, Option.bind_eq_bind, Option.bind_eq_some_iff, Word.mul?_eq_some_iff]
    constructor
    · rintro ⟨_, ⟨hfits, rfl⟩, h⟩
      obtain ⟨hrest, rfl⟩ := (ih hfits).1 h
      refine ⟨fun front hfront => ?_, by rw [List.prod_cons, Int.mul_assoc]⟩
      obtain rfl | ⟨tail, rfl, htail⟩ := List.prefix_cons_iff.1 hfront
      · simpa using hm
      · rw [List.prod_cons, ← Int.mul_assoc]
        exact hrest tail htail
    · rintro ⟨hall, rfl⟩
      have hnext : ∀ tail, tail <+: dims → Word.Fits (m * size * tail.prod) := by
        intro tail htail
        rw [Int.mul_assoc, ← List.prod_cons]
        exact hall _ (List.cons_prefix_cons.2 ⟨rfl, htail⟩)
      have hfits : Word.Fits (m * size) := by simpa using hnext [] List.nil_prefix
      exact ⟨_, ⟨hfits, rfl⟩, (ih hfits).2 ⟨hnext, by rw [List.prod_cons, Int.mul_assoc]⟩⟩

theorem count?_eq_some_iff {n : Int} : count? dims = some n ↔ dims.Counted ∧ dims.prod = n := by
  rw [count?, foldlM_mul?_eq_some_iff (by decide)]
  simp only [Counted, Int.one_mul]

theorem count_ok_iff {n : Int} : count dims = .ok n ↔ dims.Counted ∧ dims.prod = n := by
  rw [count, ← count?_eq_some_iff]
  cases count? dims <;> simp [pure, Except.pure, refuse]

/-- A number of elements is a word. -/
theorem fits_count : Ensures Word.Fits (count dims) := by
  intro n h
  obtain ⟨hcounted, rfl⟩ := count_ok_iff.1 h
  exact hcounted dims List.prefix_rfl

instance (dims : Dims) : Decidable dims.Counted :=
  decidable_of_iff ((count? dims).isSome = true) <| by
    simp [Option.isSome_iff_exists, count?_eq_some_iff]

end Dims

namespace Reshape

/-- The sizes of a target that it does not leave open. -/
def explicit (target : Dims) : Dims := target.filter (· ≠ -1)

theorem explicit_cons_open (rest : Dims) : explicit (-1 :: rest) = explicit rest := by
  simp [explicit]

theorem explicit_cons_of_ne {size : Int} (h : size ≠ -1) (rest : Dims) :
    explicit (size :: rest) = size :: explicit rest := by
  simp [explicit, h]

theorem explicit_of_not_mem {target : Dims} (h : -1 ∉ target) : explicit target = target := by
  rw [explicit, List.filter_eq_self]
  intro size hsize
  simpa using ne_of_mem_of_not_mem hsize h

variable {target : Dims}

theorem prod_explicit_nonneg (h : ∀ size ∈ target, -1 ≤ size) : 0 ≤ (explicit target).prod := by
  refine List.prod_nonneg fun size hsize => ?_
  rw [explicit, List.mem_filter, decide_eq_true_eq] at hsize
  have hleast := h size hsize.1
  omega

/-- A scan goes on over the first `-1`, and over a size that keeps the product a word. -/
theorem Scan.next_ok_iff {s s' : Scan} {size : Int} :
    s.next target size = .ok s' ↔
      size = -1 ∧ s.wildcard = false ∧ s' = { s with wildcard := true } ∨
      0 ≤ size ∧ ∃ product, Word.mul? s.explicit size = some product ∧
        s' = { s with explicit := product } := by
  rw [Scan.next]
  split
  · next hopen =>
    have hneg : ¬ 0 ≤ size := by omega
    cases s.wildcard with
    | false => simpa [hopen, hneg, pure, Except.pure] using eq_comm
    | true => simp [hneg, refuse]
  split
  · next hne hneg => simp [hne, refuse, Int.not_le.2 hneg]
  · next hne hpos =>
    cases Word.mul? s.explicit size with
    | none => simp [hne, refuse]
    | some product => simpa [hne, pure, Except.pure, Int.not_lt.1 hpos] using eq_comm

/-- A size that is not gone over is refused for its value. -/
theorem Scan.next_error {s : Scan} {size : Int} {halt : Halt} (h : s.next target size = .error halt) :
    ∃ cause, halt = .refused (.invalidValue cause) := by
  rw [Scan.next] at h
  split at h
  · split at h
    · cases h
      exact ⟨_, rfl⟩
    · cases h
  split at h
  · cases h
    exact ⟨_, rfl⟩
  split at h
  · cases h
  · cases h
    exact ⟨_, rfl⟩

/-- Going on from what was seen, a scan goes through over sizes from `-1` on, of which one at most is
    open, counting as it goes. -/
theorem foldlM_next_ok_iff {rest : Dims} {s s' : Scan} :
    rest.foldlM (Scan.next target) s = .ok s' ↔
      (∀ size ∈ rest, -1 ≤ size) ∧ s.wildcard.toNat + List.count (-1) rest ≤ 1 ∧
        (explicit rest).foldlM Word.mul? s.explicit = some s'.explicit ∧
        s'.wildcard = (s.wildcard || decide (-1 ∈ rest)) := by
  induction rest generalizing s with
  | nil =>
    obtain ⟨wildcard, product⟩ := s
    obtain ⟨wildcard', product'⟩ := s'
    cases wildcard <;> simp [explicit, pure, Except.pure, and_comm, eq_comm]
  | cons size rest ih =>
    rw [List.foldlM_cons, Outcome.bind_ok_iff]
    simp only [Scan.next_ok_iff, ih, List.forall_mem_cons]
    by_cases hopen : size = -1
    · subst hopen
      rw [explicit_cons_open, List.count_cons_self]
      constructor
      · rintro ⟨_, ⟨-, hw, rfl⟩ | ⟨hneg, -⟩, hall, hcount, hfold, hwild⟩
        · refine ⟨⟨by decide, hall⟩, ?_, hfold, by simpa using hwild⟩
          simpa [hw, Nat.add_comm] using hcount
        · omega
      · rintro ⟨⟨-, hall⟩, hcount, hfold, hwild⟩
        have hw : s.wildcard = false := by
          cases h : s.wildcard with
          | false => rfl
          | true =>
            rw [h, Bool.toNat_true] at hcount
            omega
        refine ⟨_, .inl ⟨rfl, hw, rfl⟩, hall, ?_, hfold, by simpa using hwild⟩
        simpa [hw, Nat.add_comm] using hcount
    · rw [explicit_cons_of_ne hopen, List.count_cons_of_ne hopen, List.foldlM_cons,
        Option.bind_eq_bind, Option.bind_eq_some_iff]
      have hmem : decide (-1 ∈ size :: rest) = decide (-1 ∈ rest) := by
        simp [List.mem_cons, Ne.symm hopen]
      rw [hmem]
      constructor
      · rintro ⟨_, ⟨rfl, -⟩ | ⟨hpos, product, hproduct, rfl⟩, hall, hcount, hfold, hwild⟩
        · exact absurd rfl hopen
        · exact ⟨⟨by omega, hall⟩, hcount, ⟨product, hproduct, hfold⟩, hwild⟩
      · rintro ⟨⟨hleast, hall⟩, hcount, ⟨product, hproduct, hfold⟩, hwild⟩
        exact ⟨_, .inr ⟨by omega, product, hproduct, rfl⟩, hall, hcount, hfold, hwild⟩

/-- A target is scanned if none of its sizes is below `-1`, one at most is open, and the others can be
    counted. -/
theorem scan_ok_iff {s : Scan} :
    scan target = .ok s ↔
      (∀ size ∈ target, -1 ≤ size) ∧ List.count (-1) target ≤ 1 ∧ (explicit target).Counted ∧
        s = ⟨decide (-1 ∈ target), (explicit target).prod⟩ := by
  have hcount : (explicit target).foldlM Word.mul? 1 = some s.explicit ↔
      (explicit target).Counted ∧ (explicit target).prod = s.explicit := Dims.count?_eq_some_iff
  obtain ⟨wildcard, product⟩ := s
  rw [scan, foldlM_next_ok_iff, hcount]
  simp only [Bool.toNat_false, Nat.zero_add, Bool.false_or, Scan.mk.injEq, and_assoc]
  tauto

theorem scan_error {halt : Halt} (h : scan target = .error halt) :
    ∃ cause, halt = .refused (.invalidValue cause) := by
  obtain ⟨s, size, -, hstep⟩ := Outcome.exists_of_foldlM_error h
  exact Scan.next_error hstep

end Reshape

end ShapeFlow
