import ShapeFlow.Proofs.Proper
import ShapeFlow.Proofs.Rule.Scan
import ShapeFlow.Rule
import Mathlib.Tactic.MkIffOfInductiveProp

/-! The targets of a reshape. All that the rule reads off a tensor is the number of its elements. It accepts
    a target whose sizes, an open one left out, have a product that divides this number. The open
    size then is the quotient, so the sizes of the result make up the number again; a target with no
    open size need not hold all of the elements. Nothing can be divided by a product of zero: such a
    target is accepted for a tensor without elements only, and with no size open. -/

namespace ShapeFlow

namespace Reshape

/-- The target is accepted for so many elements: no size is below `-1` and one at most is open, and the
    others can be counted, with a product that divides the number. A product of zero is accepted for
    no elements, where no size is open. -/
@[mk_iff]
structure Takes (target : Dims) (count : Int) : Prop where
  least : ∀ size ∈ target, -1 ≤ size
  oneOpen : List.count (-1) target ≤ 1
  counted : (explicit target).Counted
  divisible : 0 < (explicit target).prod ∧ (explicit target).prod ∣ count ∨
    (explicit target).prod = 0 ∧ count = 0 ∧ -1 ∉ target

instance (target : Dims) (count : Int) : Decidable (Takes target count) :=
  decidable_of_iff _ (takes_iff target count).symm

/-- What a reshape does with a target once the elements are counted. -/
def regroup (target : Dims) (count : Int) : Outcome Dims := do
  let s ← scan target
  if ← divides s count then fill target s count
  else refuse (.invalidValue (.targetCount count target))

theorem reshape_eq_regroup (inputs : List ValueInfo) :
    reshape inputs = (do
      let (x, shape) ← Operands.two inputs
      let target ← shape.asInts
      let count ← Dims.count (← x.asTensor)
      let sizes ← regroup target count
      pure [.tensor sizes x.elem]) := by
  simp only [reshape, regroup, bind_assoc]
  refine bind_congr fun ⟨x, shape⟩ => bind_congr fun target => bind_congr fun dims => ?_
  refine bind_congr fun count => bind_congr fun s => bind_congr fun fits => ?_
  cases fits <;> rfl

/-- A shape that can be counted takes its own elements. -/
theorem takes_self {sizes : Dims} (hn : sizes.Nonneg) (hc : sizes.Counted) : Takes sizes sizes.prod := by
  have hclosed : -1 ∉ sizes := fun hmem => absurd (hn _ hmem) (by decide)
  refine ⟨fun size hsize => Int.le_trans (by decide) (hn size hsize), ?_, ?_, ?_⟩
  · rw [List.count_eq_zero.2 hclosed]
    exact Nat.zero_le 1
  · rwa [explicit_of_not_mem hclosed]
  · rw [explicit_of_not_mem hclosed]
    rcases (List.prod_nonneg hn).eq_or_lt with hzero | hpos
    · exact .inr ⟨hzero.symm, hzero.symm, hclosed⟩
    · exact .inl ⟨hpos, dvd_rfl⟩

/-- The target with its open size worked out. -/
def resolved (target : Dims) (count : Int) : Dims :=
  target.map fun size => if size = -1 then count / (explicit target).prod else size

variable {target : Dims} {count : Int}

theorem resolved_of_not_mem (h : -1 ∉ target) (count : Int) : resolved target count = target := by
  have hkeep : ∀ size ∈ target,
      (if size = -1 then count / (explicit target).prod else size) = size :=
    fun size hsize => if_neg (ne_of_mem_of_not_mem hsize h)
  rw [resolved, List.map_congr_left hkeep, List.map_id']

/-- A number in place of each open size comes out of the product as often. -/
theorem prod_map_open (target : Dims) (n : Int) :
    (target.map fun size => if size = -1 then n else size).prod
      = n ^ List.count (-1) target * (explicit target).prod := by
  induction target with
  | nil => simp [explicit]
  | cons size rest ih =>
    rw [List.map_cons, List.prod_cons, ih]
    by_cases hopen : size = -1
    · subst hopen
      rw [if_pos rfl, explicit_cons_open, List.count_cons_self, pow_succ', mul_assoc]
    · rw [if_neg hopen, explicit_cons_of_ne hopen, List.count_cons_of_ne hopen, List.prod_cons]
      exact mul_left_comm _ _ _

namespace Takes

variable (h : Takes target count)
include h

/-- With a size open, the product of the others is not zero. -/
theorem pos_of_mem (hopen : -1 ∈ target) : 0 < (explicit target).prod ∧ (explicit target).prod ∣ count :=
  h.divisible.resolve_right fun hzero => hzero.2.2 hopen

/-- With its open size worked out, the target holds all elements. -/
theorem prod_resolved (hopen : -1 ∈ target) : (resolved target count).prod = count := by
  have hone : List.count (-1) target = 1 :=
    Nat.le_antisymm h.oneOpen (List.count_pos_iff.2 hopen)
  rw [resolved, prod_map_open, hone, pow_one, Int.ediv_mul_cancel (h.pos_of_mem hopen).2]

theorem nonneg_resolved (hcount : 0 ≤ count) : (resolved target count).Nonneg := by
  intro d hd
  obtain ⟨size, hsize, rfl⟩ := List.mem_map.1 hd
  split
  · exact Int.ediv_nonneg hcount (prod_explicit_nonneg h.least)
  · have hleast := h.least size hsize
    omega

/-- The open size of an accepted target is worked out exactly. -/
theorem fill_eq (hfits : Word.Fits count) :
    fill target ⟨decide (-1 ∈ target), (explicit target).prod⟩ count = .ok (resolved target count) := by
  rw [fill]
  split
  · next hopen =>
    obtain ⟨hpos, hdvd⟩ := h.pos_of_mem (of_decide_eq_true hopen)
    rw [Word.div_of_fits hpos.ne' (Word.fits_tdiv hfits hpos), Int.tdiv_eq_ediv_of_dvd hdvd]
    rfl
  · next hopen =>
    rw [resolved_of_not_mem (by simpa using hopen)]
    rfl

end Takes

/-- What is asked of a target that was scanned. -/
theorem divides_eq {s : Scan} (hs : 0 ≤ s.explicit) (hfits : Word.Fits count) :
    divides s count = .ok (decide (0 < s.explicit ∧ s.explicit ∣ count ∨
      s.explicit = 0 ∧ count = 0 ∧ s.wildcard = false)) := by
  rw [divides]
  split
  · next hzero => simp [hzero, pure, Except.pure]
  · next hne =>
    have hpos : 0 < s.explicit := by omega
    rw [Word.rem, if_neg hne, if_pos (Word.fits_tdiv hfits hpos)]
    simp [hne, hpos, Int.dvd_iff_tmod_eq_zero, pure, Except.pure]

/-- Accepted targets come out with their open size worked out. -/
theorem regroup_ok_iff (hfits : Word.Fits count) {sizes : Dims} :
    regroup target count = .ok sizes ↔ Takes target count ∧ sizes = resolved target count := by
  rw [regroup, Outcome.bind_ok_iff]
  constructor
  · rintro ⟨s, hscan, h⟩
    obtain ⟨hleast, hopen, hcounted, rfl⟩ := scan_ok_iff.1 hscan
    rw [divides_eq (prod_explicit_nonneg hleast) hfits, Outcome.ok_bind] at h
    split at h
    · next hdivisible =>
      have htakes : Takes target count := ⟨hleast, hopen, hcounted, by simpa using hdivisible⟩
      rw [htakes.fill_eq hfits] at h
      cases h
      exact ⟨htakes, rfl⟩
    · cases h
  · rintro ⟨htakes, rfl⟩
    refine ⟨_, scan_ok_iff.2 ⟨htakes.least, htakes.oneOpen, htakes.counted, rfl⟩, ?_⟩
    rw [divides_eq (prod_explicit_nonneg htakes.least) hfits, Outcome.ok_bind,
      if_pos (by simpa using htakes.divisible), htakes.fill_eq hfits]

/-- Every other target is refused for its value. -/
theorem regroup_refused (hfits : Word.Fits count) (h : ¬ Takes target count) :
    ∃ cause, regroup target count = refuse (.invalidValue cause) := by
  rw [regroup]
  cases hscan : scan target with
  | error halt =>
    obtain ⟨cause, rfl⟩ := scan_error hscan
    exact ⟨cause, rfl⟩
  | ok s =>
    obtain ⟨hleast, hopen, hcounted, rfl⟩ := scan_ok_iff.1 hscan
    rw [Outcome.ok_bind, divides_eq (prod_explicit_nonneg hleast) hfits, Outcome.ok_bind]
    exact ⟨_, if_neg fun hdivisible => h ⟨hleast, hopen, hcounted, by simpa using hdivisible⟩⟩

section Operands

variable {x shape : ValueInfo} {dims : Dims} (hx : x.asTensor = .ok dims)
  (hcount : dims.count = .ok count) (ht : shape.asInts = .ok target)
include hx hcount ht

theorem reshape_eq :
    reshape [x, shape] = (do
      let sizes ← regroup target count
      pure [.tensor sizes x.elem]) := by
  simp only [reshape_eq_regroup, Operands.two, pure_bind, hx, hcount, ht, Outcome.ok_bind]

/-- A reshape goes through for the targets that are accepted for the elements. -/
theorem reshape_ok_iff {made : List ValueInfo} :
    reshape [x, shape] = .ok made ↔
      Takes target count ∧ made = [.tensor (resolved target count) x.elem] := by
  rw [reshape_eq hx hcount ht, Outcome.bind_ok_iff]
  simp only [regroup_ok_iff (Dims.fits_count count hcount), pure, Except.pure, Except.ok.injEq]
  constructor
  · rintro ⟨_, ⟨htakes, rfl⟩, rfl⟩
    exact ⟨htakes, rfl⟩
  · rintro ⟨htakes, rfl⟩
    exact ⟨_, ⟨htakes, rfl⟩, rfl⟩

theorem reshape_refused (h : ¬ Takes target count) :
    ∃ cause, reshape [x, shape] = refuse (.invalidValue cause) := by
  obtain ⟨cause, hcause⟩ := regroup_refused (Dims.fits_count count hcount) h
  rw [reshape_eq hx hcount ht, hcause]
  exact ⟨cause, rfl⟩

end Operands

end Reshape

/-- TARGETS: a tensor whose elements can be counted goes into the targets that take their number, and into
    no others. It comes out with the sizes of the target, an open one being the number of elements
    divided by the others; no size is negative, the type stays, and with an open size the product of
    the sizes is the number of elements. Every other target is refused for its value. -/
theorem Rule.infer_reshape_targets {x shape : ValueInfo} {dims target : Dims}
    (hx : x.asTensor = .ok dims) (hn : dims.Nonneg) (hc : dims.Counted)
    (ht : shape.asInts = .ok target) :
    ((∃ made, Rule.reshape.infer [x, shape] = .ok made) ↔
      (∀ size ∈ target, -1 ≤ size) ∧ List.count (-1) target ≤ 1 ∧
        (Reshape.explicit target).Counted ∧
        (0 < (Reshape.explicit target).prod ∧ (Reshape.explicit target).prod ∣ dims.prod ∨
          (Reshape.explicit target).prod = 0 ∧ dims.prod = 0 ∧ -1 ∉ target)) ∧
    (∀ made, Rule.reshape.infer [x, shape] = .ok made →
      ∃ sizes : Dims, made = [.tensor sizes x.elem] ∧
        sizes = target.map (fun size =>
          if size = -1 then dims.prod / (Reshape.explicit target).prod else size) ∧
        sizes.Nonneg ∧ (-1 ∈ target → sizes.prod = dims.prod)) ∧
    ((¬ ∃ made, Rule.reshape.infer [x, shape] = .ok made) →
      ∃ cause, Rule.reshape.infer [x, shape] = refuse (.invalidValue cause)) := by
  have hcount : dims.count = .ok dims.prod := Dims.count_ok_iff.2 ⟨hc, rfl⟩
  have hnonneg : 0 ≤ dims.prod := List.prod_nonneg hn
  refine ⟨?_, fun made h => ?_, fun h => ?_⟩
  · rw [← Reshape.takes_iff target dims.prod]
    constructor
    · rintro ⟨made, h⟩
      exact ((Reshape.reshape_ok_iff hx hcount ht).1 h).1
    · exact fun h => ⟨_, (Reshape.reshape_ok_iff hx hcount ht).2 ⟨h, rfl⟩⟩
  · obtain ⟨htakes, rfl⟩ := (Reshape.reshape_ok_iff hx hcount ht).1 h
    exact ⟨_, rfl, rfl, htakes.nonneg_resolved hnonneg, htakes.prod_resolved⟩
  · refine Reshape.reshape_refused hx hcount ht fun htakes => ?_
    exact h ⟨_, (Reshape.reshape_ok_iff hx hcount ht).2 ⟨htakes, rfl⟩⟩

/-- Twenty-four elements in columns of six, and none of them where the other sizes come to nothing. -/
theorem Rule.infer_reshape_targets_columns :
    Rule.reshape.infer [.tensor [2, 3, 4] (some .float), .intList [-1, 6]]
      = .ok [.tensor [4, 6] (some .float)] ∧
    ∃ cause, Rule.reshape.infer [.tensor [0, 4] (some .float), .intList [0, -1]]
      = refuse (.invalidValue cause) := by
  constructor
  · have h := Rule.infer_reshape_targets (ValueInfo.asTensor_tensor [2, 3, 4] (some .float))
      (by decide) (by decide) (ValueInfo.asInts_intList [-1, 6])
    obtain ⟨made, hmade⟩ := h.1.2 (by decide)
    obtain ⟨sizes, rfl, rfl, -⟩ := h.2.1 made hmade
    exact hmade
  · have h := Rule.infer_reshape_targets (ValueInfo.asTensor_tensor [0, 4] (some .float))
      (by decide) (by decide) (ValueInfo.asInts_intList [0, -1])
    exact h.2.2 fun hmade => absurd (h.1.1 hmade) (by decide)

end ShapeFlow
