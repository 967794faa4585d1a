import ShapeFlow.Outcome

/-! Arithmetic on signed 64-bit words, over the integers. A sum, difference, product, negation,
    quotient or remainder faults when its exact result is no word (a quotient or remainder also on
    a zero divisor), so a result that is returned is the exact one. Where a rule has an answer of its
    own for a product that is too large it uses `mul?`; the saturating forms stop at the nearer
    limit. -/

namespace ShapeFlow.Word

/-- The least word. -/
def least : Int := -9223372036854775808

/-- The greatest word. -/
def greatest : Int := 9223372036854775807

/-- The integer is a word. -/
def Fits (n : Int) : Prop := least ≤ n ∧ n ≤ greatest

instance (n : Int) : Decidable (Fits n) := inferInstanceAs (Decidable (_ ∧ _))

/-- Lets an exact result through if it is a word. -/
def checked (op : WordOp) (n : Int) : Outcome Int :=
  if Fits n then pure n else giveUp (.overflow op)

/-- The sum. -/
def add (a b : Int) : Outcome Int := checked .add (a + b)

/-- The difference. -/
def sub (a b : Int) : Outcome Int := checked .sub (a - b)

/-- The product. -/
def mul (a b : Int) : Outcome Int := checked .mul (a * b)

/-- The negation. -/
def neg (a : Int) : Outcome Int := checked .neg (-a)

/-- The quotient, rounded toward zero. -/
def div (a b : Int) : Outcome Int :=
  if b = 0 then giveUp (.zeroDivisor .div) else checked .div (a.tdiv b)

/-- What the quotient leaves; it takes the sign of `a`, and needs the quotient to be a word. -/
def rem (a b : Int) : Outcome Int :=
  if b = 0 then giveUp (.zeroDivisor .rem)
  else if Fits (a.tdiv b) then pure (a.tmod b)
  else giveUp (.overflow .rem)

/-- The product, if it is a word. -/
def mul? (a b : Int) : Option Int := if Fits (a * b) then some (a * b) else none

/-- The word nearest to an integer. -/
def clamp (n : Int) : Int := max least (min greatest n)

/-- The difference, stopping at the limits. -/
def satSub (a b : Int) : Int := clamp (a - b)

/-- The product, stopping at the limits. -/
def satMul (a b : Int) : Int := clamp (a * b)

theorem fits_iff {n : Int} :
    Fits n ↔ -9223372036854775808 ≤ n ∧ n ≤ 9223372036854775807 := Iff.rfl

theorem checked_of_fits {op : WordOp} {n : Int} (h : Fits n) : checked op n = .ok n := if_pos h

theorem checked_eq_ok_iff {op : WordOp} {n m : Int} :
    checked op n = .ok m ↔ Fits n ∧ n = m := by
  unfold checked
  split <;> simp_all [giveUp, pure, Except.pure]

theorem add_of_fits {a b : Int} (h : Fits (a + b)) : add a b = .ok (a + b) := checked_of_fits h

theorem sub_of_fits {a b : Int} (h : Fits (a - b)) : sub a b = .ok (a - b) := checked_of_fits h

theorem neg_of_fits {a : Int} (h : Fits (-a)) : neg a = .ok (-a) := checked_of_fits h

theorem div_eq_ok_iff {a b n : Int} :
    div a b = .ok n ↔ b ≠ 0 ∧ Fits (a.tdiv b) ∧ a.tdiv b = n := by
  unfold div
  split
  · simp_all [giveUp]
  · simp_all [checked_eq_ok_iff]

theorem div_of_fits {a b : Int} (hb : b ≠ 0) (h : Fits (a.tdiv b)) : div a b = .ok (a.tdiv b) :=
  div_eq_ok_iff.2 ⟨hb, h, rfl⟩

theorem mul?_eq_some_iff {a b n : Int} : mul? a b = some n ↔ Fits (a * b) ∧ a * b = n := by
  unfold mul?
  split <;> simp_all

theorem clamp_of_fits {n : Int} (h : Fits n) : clamp n = n := by
  simp only [fits_iff] at h; simp only [clamp, least, greatest]; omega

end ShapeFlow.Word
