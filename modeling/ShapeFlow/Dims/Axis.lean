import ShapeFlow.Word

/-! Axes by number. A tensor of rank `n` has the axes `0` to `n - 1`, and `-1` to `-n` name the same
    axes from the last backwards. -/

namespace ShapeFlow.Axis

/-- The position that an axis number names in a tensor of this rank. A rank past the words counts
    as the greatest word. -/
def resolve (rank : Nat) (axis : Int) : Outcome Nat := do
  let n := min (rank : Int) Word.greatest
  let lowest ← Word.neg n
  if axis < lowest ∨ n ≤ axis then
    refuse (.invalidValue (.axisRange axis rank))
  else if 0 ≤ axis then
    pure axis.toNat
  else do
    let position ← Word.add n axis
    pure position.toNat

/-- Numbers from `0` on are positions, and negative ones count from the back. -/
theorem resolve_of_mem {rank : Nat} {axis : Int} (hr : (rank : Int) ≤ Word.greatest)
    (h : -rank ≤ axis ∧ axis < rank) :
    resolve rank axis = .ok (if 0 ≤ axis then axis.toNat else (rank + axis).toNat) := by
  have hn : min (rank : Int) Word.greatest = rank := Int.min_eq_left hr
  simp only [Word.greatest] at hr
  have neg : Word.neg rank = .ok (-rank) :=
    Word.checked_of_fits (Word.fits_iff.2 ⟨by omega, by omega⟩)
  simp only [resolve, hn, neg, bind, Except.bind]
  rw [if_neg (by omega)]
  split
  · rfl
  · have add : Word.add rank axis = .ok (rank + axis) :=
      Word.checked_of_fits (Word.fits_iff.2 ⟨by omega, by omega⟩)
    rw [add]
    rfl

/-- Every other number is refused. -/
theorem resolve_of_not_mem {rank : Nat} {axis : Int} (hr : (rank : Int) ≤ Word.greatest)
    (h : ¬ (-rank ≤ axis ∧ axis < rank)) :
    resolve rank axis = refuse (.invalidValue (.axisRange axis rank)) := by
  have hn : min (rank : Int) Word.greatest = rank := Int.min_eq_left hr
  simp only [Word.greatest] at hr
  have neg : Word.neg rank = .ok (-rank) :=
    Word.checked_of_fits (Word.fits_iff.2 ⟨by omega, by omega⟩)
  simp only [resolve, hn, neg, bind, Except.bind]
  rw [if_pos (by omega)]

/-- An axis has two numbers, one from the front and one from the back. -/
theorem resolve_ok_iff {rank position : Nat} {axis : Int} (hr : (rank : Int) ≤ Word.greatest) :
    resolve rank axis = .ok position ↔
      position < rank ∧ (axis = position ∨ axis = position - rank) := by
  by_cases h : -rank ≤ axis ∧ axis < rank
  · rw [resolve_of_mem hr h, Except.ok.injEq]
    split <;> omega
  · rw [resolve_of_not_mem hr h]
    simp only [refuse, reduceCtorEq, false_iff]
    omega

/-- The axes of a tensor have the numbers from the rank below zero up to one less than the rank. -/
theorem exists_position_iff {rank : Nat} {axis : Int} :
    (∃ position : Nat, position < rank ∧ (axis = position ∨ axis = position - rank)) ↔
      -rank ≤ axis ∧ axis < rank := by
  constructor
  · rintro ⟨position, hlt, h⟩
    omega
  · intro h
    exact ⟨(if 0 ≤ axis then axis else rank + axis).toNat, by split <;> omega⟩

end ShapeFlow.Axis
