import ShapeFlow.Proofs.Outcome
import ShapeFlow.Rule.Chunk
import Mathlib.Data.Rat.Floor
import Mathlib.Tactic.Linarith

/-! How an axis falls into chunks. A chunk has the share that an even split gives it, rounded up, and the
    last chunk has what the others leave. The shares are worked out by a rounded division and taken
    off by a product that may leave the words; but a product that does so is past the size as well,
    where the split is refused anyhow, so over words the arithmetic is that of the integers. -/

namespace ShapeFlow

namespace Chunk

/-! ### Shares -/

/-- The size of an even split of an axis, rounded up. -/
def share (size chunks : Int) : Int := ⌈(size / chunks : ℚ)⌉

/-- The share is the least number that, once for each chunk, covers the axis. -/
theorem share_eq_iff {size chunks each : Int} (hc : 0 < chunks) :
    share size chunks = each ↔ (each - 1) * chunks < size ∧ size ≤ each * chunks := by
  have hpos : (0 : ℚ) < chunks := by exact_mod_cast hc
  rw [share, Int.ceil_eq_iff, lt_div_iff₀ hpos, div_le_iff₀ hpos]
  norm_cast

theorem share_nonneg {size chunks : Int} (hs : 0 ≤ size) (hc : 0 ≤ chunks) :
    0 ≤ share size chunks :=
  Int.ceil_nonneg (div_nonneg (by exact_mod_cast hs) (by exact_mod_cast hc))

@[simp] theorem share_one (size : Int) : share size 1 = size := by
  rw [share_eq_iff (by decide)]
  omega

/-- Rounding up is rounding down from one position before the end, and one more. -/
theorem share_eq_tdiv {size chunks : Int} (hs : 0 < size) (hc : 0 < chunks) :
    share size chunks = (size - 1).tdiv chunks + 1 := by
  have hdiv : (size - 1).tdiv chunks = (size - 1) / chunks := Int.tdiv_eq_ediv_of_nonneg (by omega)
  have hmod := Int.mul_ediv_add_emod (size - 1) chunks
  have hnonneg := Int.emod_nonneg (size - 1) hc.ne'
  have hlt := Int.emod_lt_of_pos (size - 1) hc
  rw [share_eq_iff hc, hdiv]
  constructor <;> linarith

/-- The axis falls into this many chunks: an even split leaves none of them empty, or the axis is empty
    itself and stays whole. -/
def Splits (size chunks : Int) : Prop :=
  1 ≤ chunks ∧
    (size = 0 ∧ chunks = 1 ∨
      (1 ≤ chunks ∧ chunks ≤ size) ∧ share size chunks * (chunks - 1) < size)

instance (size chunks : Int) : Decidable (Splits size chunks) :=
  inferInstanceAs (Decidable (_ ∧ _))

theorem Splits.bounds {size chunks : Int} (h : Splits size chunks) : 0 < chunks ∧ 0 ≤ size := by
  obtain ⟨hpos, ⟨rfl, -⟩ | ⟨⟨_, _⟩, -⟩⟩ := h <;> omega

/-- The shares of all chunks but the last, and the rest. -/
def parts (size chunks : Int) : List Int :=
  List.replicate (chunks - 1).toNat (share size chunks) ++
    [size - share size chunks * (chunks - 1)]

theorem length_parts {size chunks : Int} (hc : 1 ≤ chunks) :
    ((parts size chunks).length : Int) = chunks := by
  simp [parts]
  omega

/-- The chunks make up the axis. -/
theorem sum_parts {size chunks : Int} (hc : 1 ≤ chunks) : (parts size chunks).sum = size := by
  have hcast : ((chunks - 1).toNat : Int) = chunks - 1 := Int.toNat_of_nonneg (by omega)
  simp only [parts, List.sum_append, List.sum_replicate, List.sum_singleton, nsmul_eq_mul, hcast]
  ring

/-- The last chunk of an axis that is not empty holds something, and no more than the others. -/
theorem Splits.last {size chunks : Int} (h : Splits size chunks) (hs : size ≠ 0) :
    1 ≤ size - share size chunks * (chunks - 1) ∧
      size - share size chunks * (chunks - 1) ≤ share size chunks := by
  obtain ⟨hc, ⟨h0, -⟩ | ⟨-, hlt⟩⟩ := h
  · exact absurd h0 hs
  · obtain ⟨-, hcover⟩ := (share_eq_iff (by omega)).1 (Eq.refl (share size chunks))
    constructor <;> linarith

/-! ### The sizes of the chunks -/

/-- With no more chunks than positions, the shares before the last have to leave some of the axis. -/
theorem sizes_of_le {size chunks : Int} (hs : Word.Fits size) (hc : 1 ≤ chunks) (hle : chunks ≤ size) :
    sizes size chunks =
      if share size chunks * (chunks - 1) < size then .ok (parts size chunks)
      else refuse (.invalidValue (.chunkTooMany size chunks)) := by
  rw [Word.fits_iff] at hs
  have hshare : share size chunks = (size - 1).tdiv chunks + 1 :=
    share_eq_tdiv (by omega) (by omega)
  have hquot : 0 ≤ (size - 1).tdiv chunks := Int.tdiv_nonneg (by omega) (by omega)
  have hself : (size - 1).tdiv chunks ≤ size - 1 := Int.tdiv_le_self _ (by omega)
  have hsub : Word.sub size 1 = .ok (size - 1) := Word.sub_of_fits (Word.fits_iff.2 (by omega))
  have hdiv : Word.div (size - 1) chunks = .ok ((size - 1).tdiv chunks) :=
    Word.div_of_fits (by omega) (Word.fits_iff.2 (by omega))
  have hadd : Word.add ((size - 1).tdiv chunks) 1 = .ok (share size chunks) := by
    rw [hshare]
    exact Word.add_of_fits (Word.fits_iff.2 (by omega))
  have hleading : Word.sub chunks 1 = .ok (chunks - 1) :=
    Word.sub_of_fits (Word.fits_iff.2 (by omega))
  rw [sizes, if_neg (by omega), if_neg (by omega), if_neg (by omega), if_neg (by omega)]
  simp only [hsub, hdiv, hadd, hleading, Outcome.ok_bind, Word.mul?]
  have hnonneg : 0 ≤ share size chunks * (chunks - 1) := Int.mul_nonneg (by omega) (by omega)
  by_cases hlt : share size chunks * (chunks - 1) < size
  · have hlast : Word.sub size (share size chunks * (chunks - 1))
        = .ok (size - share size chunks * (chunks - 1)) :=
      Word.sub_of_fits (Word.fits_iff.2 (by omega))
    rw [if_pos (Word.fits_iff.2 (by omega)), if_pos hlt]
    simp only [hlt, if_true, hlast]
    rfl
  · -- a product that is no word is past the size as well
    rw [if_neg hlt]
    by_cases hfits : Word.Fits (share size chunks * (chunks - 1)) <;> simp [hfits, hlt]

/-- What a split comes to, for an axis whose size is a word. -/
theorem sizes_eq {size : Int} (hs : Word.Fits size) (chunks : Int) :
    sizes size chunks =
      if chunks ≤ 0 then refuse (.invalidValue (.chunkCount chunks))
      else if size < 0 then refuse (.invalidValue (.chunkNegative size))
      else if Splits size chunks then .ok (parts size chunks)
      else refuse (.invalidValue (.chunkTooMany size chunks)) := by
  by_cases hc : chunks ≤ 0
  · rw [sizes, if_pos hc, if_pos hc]
  by_cases hn : size < 0
  · rw [sizes, if_neg hc, if_neg hc, if_pos hn, if_pos hn]
  rw [if_neg hc, if_neg hn]
  rcases eq_or_ne size 0 with rfl | hne
  · rw [sizes, if_neg hc, if_neg hn, if_pos rfl]
    by_cases h : chunks = 1 <;> simp [Splits, parts, h, pure, Except.pure]
    omega
  · by_cases hle : chunks ≤ size
    · rw [sizes_of_le hs (by omega) hle]
      simp [Splits, hne, hle, show 1 ≤ chunks by omega]
    · rw [sizes, if_neg hc, if_neg hn, if_neg hne, if_pos (by omega)]
      simp [Splits, hne, hle]

/-- Chunks are had exactly where the axis falls into them. -/
theorem sizes_ok_iff {size : Int} (hs : Word.Fits size) {chunks : Int} {made : List Int} :
    sizes size chunks = .ok made ↔ Splits size chunks ∧ made = parts size chunks := by
  rw [sizes_eq hs]
  split
  · have hnot : ¬ Splits size chunks := fun h => by have := h.bounds; omega
    simp [refuse, hnot]
  split
  · have hnot : ¬ Splits size chunks := fun h => by have := h.bounds; omega
    simp [refuse, hnot]
  split
  · next h => simp [h, eq_comm]
  · next h => simp [refuse, h]

/-- EXACT: over all words, an axis is split exactly where the split leaves no chunk empty, or where it is
    empty and stays whole. The chunks are then as many as were asked for and make up the axis; all
    but the last have the size of an even split rounded up, and the last has no more. Any other
    request is refused for its value. -/
theorem sizes_exact {size : Int} (hs : Word.Fits size) (chunks : Int) :
    ((∃ made, sizes size chunks = .ok made) ↔
        1 ≤ chunks ∧ (size = 0 ∧ chunks = 1 ∨
          (1 ≤ chunks ∧ chunks ≤ size) ∧ share size chunks * (chunks - 1) < size)) ∧
      (∀ made, sizes size chunks = .ok made →
        (made.length : Int) = chunks ∧ made.sum = size ∧
          ∃ last, made = List.replicate (chunks - 1).toNat (share size chunks) ++ [last] ∧
            if size = 0 then last = 0 else 1 ≤ last ∧ last ≤ share size chunks) ∧
      ((¬ ∃ made, sizes size chunks = .ok made) →
        ∃ cause, sizes size chunks = refuse (.invalidValue cause)) := by
  refine ⟨?_, ?_, ?_⟩
  · constructor
    · rintro ⟨made, h⟩
      exact ((sizes_ok_iff hs).1 h).1
    · exact fun h => ⟨_, (sizes_ok_iff hs).2 ⟨h, rfl⟩⟩
  · intro made h
    obtain ⟨hsplits, rfl⟩ := (sizes_ok_iff hs).1 h
    refine ⟨length_parts hsplits.1, sum_parts hsplits.1, _, rfl, ?_⟩
    split
    · next h0 =>
      obtain ⟨-, ⟨-, rfl⟩ | ⟨⟨_, _⟩, -⟩⟩ := hsplits
      · simpa using h0
      · omega
    · next hne => exact hsplits.last hne
  · intro h
    rw [sizes_eq hs]
    split
    · exact ⟨_, rfl⟩
    split
    · exact ⟨_, rfl⟩
    split
    · next hsplits => exact absurd ⟨_, (sizes_ok_iff hs).2 ⟨hsplits, rfl⟩⟩ h
    · exact ⟨_, rfl⟩

/-- The longest axis in three: the last chunk is two short of the others. -/
theorem sizes_exact_greatest :
    Word.Fits Word.greatest ∧
      sizes Word.greatest 3
        = .ok [3074457345618258603, 3074457345618258603, 3074457345618258601] ∧
      (1 ≤ (3 : Int) ∧ (Word.greatest = 0 ∧ (3 : Int) = 1 ∨
        (1 ≤ (3 : Int) ∧ 3 ≤ Word.greatest) ∧ share Word.greatest 3 * (3 - 1) < Word.greatest)) := by
  have hs : Word.Fits Word.greatest := by decide
  have hmade : sizes Word.greatest 3
      = .ok [3074457345618258603, 3074457345618258603, 3074457345618258601] := rfl
  exact ⟨hs, hmade, (sizes_exact hs 3).1.1 ⟨_, hmade⟩⟩

end Chunk

end ShapeFlow
