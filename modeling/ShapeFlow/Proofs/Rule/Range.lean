import ShapeFlow.Proofs.Rule.Shares
import ShapeFlow.Rule
import Mathlib.Data.Set.Card

/-! The positions that a cut takes from an axis. Both ends of a range are first brought onto the axis: a
    negative one counts from the back, and one beyond the axis stops at it. What is taken then are the
    positions from the lower end on, a step apart, that lie before the upper end. The rule answers in
    advance where an end lies so far out that the range is empty, and its comparisons differ for the
    two ends; but it comes to the same for both, and no difference or sum on the way leaves the
    words. -/

namespace ShapeFlow

/-- An axis has two numbers, one from the front and one from the back. -/
theorem Axis.resolve_eq {rank position : Nat} {d : Int} (hr : (rank : Int) ≤ Word.greatest)
    (hp : position < rank) (hd : d = position ∨ d = position - rank) :
    resolve rank d = .ok position :=
  (resolve_ok_iff hr).2 ⟨hp, hd⟩

namespace Slice

/-! ### Ends -/

/-- Where an end of a range lies on an axis: a negative end counts from the back, and one beyond the
    axis stops at it. -/
def edge (size n : Int) : Int := max 0 (min size (if n < 0 then n + size else n))

theorem edge_nonneg (size n : Int) : 0 ≤ edge size n := le_max_left _ _

theorem edge_le {size : Int} (hs : 0 ≤ size) (n : Int) : edge size n ≤ size := by
  rw [edge]
  omega

/-- An end on the axis stays where it is. -/
theorem edge_of_mem {size n : Int} (h : 0 ≤ n) (hle : n ≤ size) : edge size n = n := by
  rw [edge, if_neg (by omega)]
  omega

/-- An end past the axis is the end of the axis. -/
theorem edge_of_le {size n : Int} (hs : 0 ≤ size) (h : size ≤ n) : edge size n = size := by
  rw [edge, if_neg (by omega)]
  omega

/-! ### Strides -/

/-- How many strides it takes from `lo` on to reach `hi`. -/
def steps (lo hi step : Int) : ℕ := ⌈((hi - lo : Int) / step : ℚ)⌉₊

variable {lo hi step : Int}

/-- Before a stride that is one of them, `hi` is not reached. -/
theorem lt_steps_iff (hs : 0 < step) {i : ℕ} : i < steps lo hi step ↔ lo + i * step < hi := by
  have hpos : (0 : ℚ) < step := by exact_mod_cast hs
  rw [steps, Nat.lt_ceil, lt_div_iff₀ hpos, ← lt_sub_iff_add_lt']
  norm_cast

/-- As many strides are taken as there are positions that lie whole strides from `lo` on before `hi`. -/
theorem encard_eq_steps (lo hi : Int) (hs : 0 < step) :
    {i : ℕ | lo + i * step < hi}.encard = steps lo hi step := by
  simp only [← lt_steps_iff hs, Set.Nat.encard_range]

theorem steps_eq_zero (hs : 0 < step) (h : hi ≤ lo) : steps lo hi step = 0 := by
  by_contra hne
  have hfirst := (lt_steps_iff hs).1 (Nat.pos_of_ne_zero hne)
  omega

/-- A stride takes up a position at least. -/
theorem steps_le (hs : 0 < step) (h : lo ≤ hi) : (steps lo hi step : Int) ≤ hi - lo := by
  by_contra hlt
  have hi' : ((hi - lo).toNat : Int) = hi - lo := Int.toNat_of_nonneg (by omega)
  have hlast := (lt_steps_iff hs).1 (show (hi - lo).toNat < steps lo hi step by omega)
  have hgrow : hi - lo ≤ (hi - lo) * step := le_mul_of_one_le_right (by omega) hs
  rw [hi'] at hlast
  omega

/-- The strides of a range are the shares of it that are one stride long. -/
theorem steps_eq_share (hs : 0 < step) (h : lo ≤ hi) :
    (steps lo hi step : Int) = Chunk.share (hi - lo) step := by
  have hnonneg : (0 : ℚ) ≤ (hi - lo : Int) := by exact_mod_cast Int.sub_nonneg.2 h
  exact Int.natCast_ceil_eq_ceil (div_nonneg hnonneg (by exact_mod_cast hs.le))

/-- Strides of one position take every position. -/
theorem steps_one (h : lo ≤ hi) : (steps lo hi 1 : Int) = hi - lo := by
  rw [steps_eq_share (by decide) h, Chunk.share_one]

/-- Strides inside an axis whose size is a word are counted without leaving the words. -/
theorem strides_eq (hlo : 0 ≤ lo) (hhi : hi ≤ Word.greatest) (hs : 0 < step) :
    strides lo hi step = .ok (steps lo hi step) := by
  rw [Word.greatest] at hhi
  rw [strides]
  split
  · next hle =>
    rw [steps_eq_zero hs hle]
    rfl
  · next hlt =>
    have hle : lo ≤ hi := (Int.not_le.1 hlt).le
    have hcount : (steps lo hi step : Int) = (hi - lo - 1).tdiv step + 1 := by
      rw [steps_eq_share hs hle, Chunk.share_eq_tdiv (by omega) hs]
    have hmost := steps_le hs hle
    have hquot : 0 ≤ (hi - lo - 1).tdiv step := Int.tdiv_nonneg (by omega) hs.le
    have hwidth : Word.sub hi lo = .ok (hi - lo) := Word.sub_of_fits (Word.fits_iff.2 (by omega))
    have hspan : Word.sub (hi - lo) 1 = .ok (hi - lo - 1) :=
      Word.sub_of_fits (Word.fits_iff.2 (by omega))
    have hdiv : Word.div (hi - lo - 1) step = .ok ((hi - lo - 1).tdiv step) :=
      Word.div_of_fits hs.ne' (Word.fits_iff.2 (by omega))
    rw [hwidth, Outcome.ok_bind, hspan, Outcome.ok_bind, hdiv, Outcome.ok_bind,
      Word.add_of_fits (Word.fits_iff.2 (by omega)), hcount]

/-! ### The length of a cut -/

variable {size : Int}

/-- An axis that is not negative is cut to the strides between the two ends. -/
theorem length_of_nonneg (hfits : Word.Fits size) (hsize : 0 ≤ size) (start stop : Int)
    (hs : 0 < step) :
    length size start stop step = .ok (steps (edge size start) (edge size stop) step) := by
  rw [Word.fits_iff] at hfits
  have hneg : Word.neg size = .ok (-size) := Word.neg_of_fits (Word.fits_iff.2 (by omega))
  have hempty : edge size stop ≤ edge size start →
      (.ok 0 : Outcome Int) = .ok (steps (edge size start) (edge size stop) step) := by
    intro h
    rw [steps_eq_zero hs h]
    rfl
  rw [length]
  split
  · next hout =>
    refine hempty ?_
    rw [edge_of_le hsize hout]
    exact edge_le hsize stop
  next hstart =>
  rw [hneg, Outcome.ok_bind]
  split
  · next hout =>
    have hstop : edge size stop = 0 := by
      rw [edge]
      omega
    refine hempty ?_
    rw [hstop]
    exact edge_nonneg size start
  next hstop =>
  have hlower : lower size start = .ok (edge size start) := by
    rw [lower, hneg, Outcome.ok_bind, edge]
    split
    · rw [max_eq_left (by omega)]
      rfl
    split
    · rw [Word.add_of_fits (Word.fits_iff.2 (by omega)), min_eq_right (by omega),
        max_eq_right (by omega)]
    · rw [min_eq_right (by omega), max_eq_right (by omega)]
      rfl
  have hupper : upper size stop = .ok (edge size stop) := by
    rw [upper, edge]
    split
    · rw [if_neg (by omega), min_eq_left (by omega), max_eq_right hsize]
      rfl
    split
    · rw [Word.add_of_fits (Word.fits_iff.2 (by omega)), min_eq_right (by omega),
        max_eq_right (by omega)]
    · rw [min_eq_right (by omega), max_eq_right (by omega)]
      rfl
  rw [hlower, Outcome.ok_bind, hupper, Outcome.ok_bind]
  exact strides_eq (edge_nonneg size start) (le_trans (edge_le hsize stop) hfits.2) hs

/-- Nothing is taken from a negative axis. A start before its end is negative, which leaves the least word
    out, and comes to position zero. -/
theorem length_of_neg (hfits : Word.Fits size) (hsize : size < 0) {start : Int}
    (hstart : Word.Fits start) (stop : Int) :
    length size start stop step = .ok 0 := by
  rw [Word.fits_iff] at hfits hstart
  rw [length]
  split
  · rfl
  next hlt =>
  have hneg : Word.neg size = .ok (-size) := Word.neg_of_fits (Word.fits_iff.2 (by omega))
  rw [hneg, Outcome.ok_bind]
  split
  · rfl
  next hstop =>
  have hlower : lower size start = .ok 0 := by
    rw [lower, hneg, Outcome.ok_bind, if_pos (by omega)]
    rfl
  have hupper : upper size stop = .ok size := by
    rw [upper, if_pos (by omega)]
    rfl
  rw [hlower, Outcome.ok_bind, hupper, Outcome.ok_bind, strides, if_pos hsize.le]
  rfl

/-! ### Cuts -/

section Cuts

variable {x axis first last stride : ValueInfo} {dims : Dims} {d start stop : Int} {position : Nat}
  (hx : x.asTensor = .ok dims) (hd : axis.asInt = .ok d)
  (hr : Axis.resolve dims.length d = .ok position) (hstart : first.asInt = .ok start)
  (hstop : last.asInt = .ok stop) (hstep : stride.asInt = .ok step)
include hx hd hr hstart hstop hstep

/-- A cut changes the tensor at one axis alone, where it has the length of the range. -/
theorem slice_eq (hpos : 0 < step) (hsize : dims[position]? = some size) {n : Int}
    (hn : length size start stop step = .ok n) :
    slice [x, axis, first, last, stride] = .ok [.tensor (dims.set position n) x.elem] := by
  obtain ⟨hlt, rfl⟩ := List.getElem?_eq_some_iff.1 hsize
  simp only [slice, Operands.five, pure_bind, hx, hd, hr, hstart, hstop, hstep, Outcome.ok_bind]
  rw [if_neg (by omega), Dims.entry_of_lt hlt, Outcome.ok_bind, hn, Outcome.ok_bind,
    Dims.replace_of_lt n hlt]
  rfl

/-- Only steps forward are taken. -/
theorem slice_of_step_nonpos (hneg : step ≤ 0) :
    slice [x, axis, first, last, stride] = refuse (.invalidValue (.sliceStep step)) := by
  simp only [slice, Operands.five, pure_bind, hx, hd, hr, hstart, hstop, hstep, Outcome.ok_bind,
    if_pos hneg]

end Cuts

end Slice

/-- RANGE: a cut leaves all axes but one as they are. On that one it takes the positions that lie whole
    steps from the lower end on before the upper one, with both ends brought onto the axis; so it
    takes no more than there are. It takes none from a negative axis, and a step that does not go
    forward is refused. -/
theorem Rule.infer_slice_range {x axis first last stride : ValueInfo} {dims : Dims}
    {d start stop step size : Int} {position : Nat} (hx : x.asTensor = .ok dims)
    (hr : (dims.length : Int) ≤ Word.greatest) (hd : axis.asInt = .ok d)
    (hnames : d = position ∨ d = position - dims.length) (hsize : dims[position]? = some size)
    (hfits : Word.Fits size) (hstart : first.asInt = .ok start) (hword : Word.Fits start)
    (hstop : last.asInt = .ok stop) (hstep : stride.asInt = .ok step) :
    (1 ≤ step → 0 ≤ size → ∃ n : ℕ,
        Rule.slice.infer [x, axis, first, last, stride]
          = .ok [.tensor (dims.set position n) x.elem] ∧
        {i : ℕ | Slice.edge size start + i * step < Slice.edge size stop}.encard = n ∧
        (n : Int) ≤ size) ∧
      (1 ≤ step → size < 0 →
        Rule.slice.infer [x, axis, first, last, stride]
          = .ok [.tensor (dims.set position 0) x.elem]) ∧
      (step ≤ 0 →
        Rule.slice.infer [x, axis, first, last, stride]
          = refuse (.invalidValue (.sliceStep step))) := by
  obtain ⟨hlt, -⟩ := List.getElem?_eq_some_iff.1 hsize
  have hresolve : Axis.resolve dims.length d = .ok position := Axis.resolve_eq hr hlt hnames
  refine ⟨fun hpos hnonneg => ?_, fun hpos hneg => ?_, fun hback => ?_⟩
  · have hlength := Slice.length_of_nonneg hfits hnonneg start stop hpos
    refine ⟨_, Slice.slice_eq hx hd hresolve hstart hstop hstep hpos hsize hlength,
      Slice.encard_eq_steps _ _ hpos, ?_⟩
    have hlo := Slice.edge_nonneg size start
    have hhi := Slice.edge_le hnonneg stop
    rcases Int.le_total (Slice.edge size start) (Slice.edge size stop) with h | h
    · have hsteps := Slice.steps_le hpos h
      omega
    · rw [Slice.steps_eq_zero hpos h]
      exact_mod_cast hnonneg
  · exact Slice.slice_eq hx hd hresolve hstart hstop hstep hpos hsize
      (Slice.length_of_neg hfits hneg hword stop)
  · exact Slice.slice_of_step_nonpos hx hd hresolve hstart hstop hstep hback

/-- Every fourth of ten columns from the seventh last on, up to an end far out: two of them. Nothing of the
    least axis, and no cut in place. -/
theorem Rule.infer_slice_range_columns :
    (Rule.slice.infer [.tensor [2, 10] (some .float), .scalar (-1) .int64, .scalar (-7) .int64,
        .scalar Word.greatest .int64, .scalar 4 .int64] = .ok [.tensor [2, 2] (some .float)] ∧
      {i : ℕ | (3 : Int) + i * 4 < 10}.encard = 2) ∧
    Rule.slice.infer [.tensor [Word.least] none, .scalar 0 .int64, .scalar (-1) .int64,
        .scalar Word.greatest .int64, .scalar 1 .int64] = .ok [.tensor [0] none] ∧
    Rule.slice.infer [.tensor [2, 10] none, .scalar 0 .int64, .scalar 0 .int64, .scalar 1 .int64,
        .scalar 0 .int64] = refuse (.invalidValue (.sliceStep 0)) := by
  have hmade : Rule.slice.infer [.tensor [2, 10] (some .float), .scalar (-1) .int64,
      .scalar (-7) .int64, .scalar Word.greatest .int64, .scalar 4 .int64]
      = .ok [.tensor [2, 2] (some .float)] := rfl
  have hlast : (-1 : Int) = (1 : ℕ) ∨ (-1 : Int) = (1 : ℕ) - ([2, 10] : Dims).length := by decide
  have hfirst (dims : Dims) : (0 : Int) = (0 : ℕ) ∨ (0 : Int) = (0 : ℕ) - dims.length := .inl rfl
  refine ⟨⟨hmade, ?_⟩, ?_, ?_⟩
  · obtain ⟨n, hn, hcount, -⟩ := (Rule.infer_slice_range
      (ValueInfo.asTensor_tensor [2, 10] (some .float)) (by decide) (ValueInfo.asInt_scalar (-1) .int64)
      hlast rfl (by decide) (ValueInfo.asInt_scalar (-7) .int64) (by decide)
      (ValueInfo.asInt_scalar Word.greatest .int64) (ValueInfo.asInt_scalar 4 .int64)).1
      (by decide) (by decide)
    cases hmade.symm.trans hn
    exact hcount
  · exact (Rule.infer_slice_range (ValueInfo.asTensor_tensor [Word.least] none)
      (by decide) (ValueInfo.asInt_scalar 0 .int64) (hfirst _) rfl (by decide)
      (ValueInfo.asInt_scalar (-1) .int64) (by decide) (ValueInfo.asInt_scalar Word.greatest .int64)
      (ValueInfo.asInt_scalar 1 .int64)).2.1 (by decide) (by decide)
  · exact (Rule.infer_slice_range (ValueInfo.asTensor_tensor [2, 10] none)
      (by decide) (ValueInfo.asInt_scalar 0 .int64) (hfirst _) rfl (by decide)
      (ValueInfo.asInt_scalar 0 .int64) (by decide) (ValueInfo.asInt_scalar 1 .int64)
      (ValueInfo.asInt_scalar 0 .int64)).2.2 (by decide)

end ShapeFlow
