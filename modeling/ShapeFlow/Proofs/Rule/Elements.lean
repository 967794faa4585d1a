import ShapeFlow.Proofs.Rule.Order
import ShapeFlow.Proofs.Rule.Target
import Mathlib.Algebra.BigOperators.Group.List.Basic
import Mathlib.Algebra.BigOperators.Ring.List
import Mathlib.Algebra.Order.Ring.Int
import Mathlib.Data.List.TakeWhile

/-! How many elements a rule can count. The product is taken from the left and has to stay a word on the
    way, and sizes that are not zero only let it grow. So what decides is the product of the sizes in
    front of the first zero: past a zero nothing can go wrong, and before it the product may leave
    the words although the tensor has no elements at all. The number is then refused in this order of
    the axes and had in another. -/

namespace ShapeFlow

namespace Dims

/-! ### The sizes in front of the first zero -/

/-- The product of the sizes in front of the first zero. -/
def leading (dims : Dims) : Int := (dims.takeWhile (· ≠ 0)).prod

variable {dims : Dims}

@[simp] theorem leading_nil : leading [] = 1 := rfl

@[simp] theorem leading_zero_cons (rest : Dims) : leading (0 :: rest) = 1 := rfl

theorem leading_cons {size : Int} (hs : size ≠ 0) (rest : Dims) :
    leading (size :: rest) = size * leading rest := by
  simp [leading, hs]

theorem leading_append {front : Dims} (h : 0 ∉ front) (rest : Dims) :
    leading (front ++ rest) = front.prod * leading rest := by
  induction front with
  | nil => simp
  | cons size front ih =>
    rw [List.mem_cons, not_or] at h
    rw [List.cons_append, leading_cons (Ne.symm h.1), ih h.2, List.prod_cons, Int.mul_assoc]

theorem leading_of_not_mem (h : 0 ∉ dims) : leading dims = dims.prod := by
  simpa using leading_append h []

theorem leading_pos (hn : dims.Nonneg) : 1 ≤ leading dims := by
  induction dims with
  | nil => simp
  | cons size dims ih =>
    rw [nonneg_cons] at hn
    rcases eq_or_ne size 0 with rfl | hs
    · simp
    · rw [leading_cons hs]
      exact Int.mul_pos (by omega) (ih hn.2)

/-- The product of the sizes that are not zero. -/
def solid (dims : Dims) : Int := (dims.filter (· ≠ 0)).prod

theorem solid_pos (hn : dims.Nonneg) : 1 ≤ solid dims := by
  have hnot : (0 : Int) ∉ dims.filter (· ≠ 0) := by simp
  rw [solid, ← leading_of_not_mem hnot]
  exact leading_pos fun size hs => hn size (List.mem_of_mem_filter hs)

theorem leading_le_solid (hn : dims.Nonneg) : leading dims ≤ solid dims := by
  induction dims with
  | nil => simp [solid]
  | cons size dims ih =>
    rcases eq_or_ne size 0 with rfl | hs
    · exact solid_pos hn
    · rw [nonneg_cons] at hn
      have hsolid : solid (size :: dims) = size * solid dims := by simp [solid, hs]
      rw [leading_cons hs, hsolid]
      exact Int.mul_le_mul_of_nonneg_left (ih hn.2) hn.1

/-- The front keeps within a bound in every order of the sizes or in none, exactly if a zero among them
    comes with others whose whole product keeps within it. -/
theorem forall_perm_leading_iff (hn : dims.Nonneg) {bound : Int} (hb : 1 ≤ bound) :
    (∀ sizes : Dims, sizes.Perm dims → (leading sizes ≤ bound ↔ leading dims ≤ bound)) ↔
      (0 ∈ dims → solid dims ≤ bound) := by
  constructor
  · intro h hzero
    have hfirst : leading dims ≤ bound := (h _ (List.perm_cons_erase hzero).symm).1 (by simpa)
    have hlast := (h _ (List.filter_append_perm (· ≠ 0) dims)).2 hfirst
    rw [leading_append (by simp)] at hlast
    have hrest : 1 ≤ leading (dims.filter fun size => !decide (size ≠ 0)) :=
      leading_pos fun size hs => hn size (List.mem_of_mem_filter hs)
    have hpos : 0 ≤ solid dims := Int.le_trans (by decide) (solid_pos hn)
    exact Int.le_trans (le_mul_of_one_le_right hpos hrest) hlast
  · intro h sizes hsizes
    by_cases hzero : 0 ∈ dims
    · have hsame : solid sizes = solid dims := (hsizes.filter _).prod_eq
      have hn' : sizes.Nonneg := fun size hs => hn size (hsizes.mem_iff.1 hs)
      have hle := h hzero
      have hle' := leading_le_solid hn
      have hle'' := leading_le_solid hn'
      constructor <;> omega
    · rw [leading_of_not_mem hzero, leading_of_not_mem (mt hsizes.mem_iff.1 hzero), hsizes.prod_eq]

/-! ### Counting -/

/-- The largest product on the way is that in front of the first zero. -/
theorem counted_iff (hn : dims.Nonneg) : dims.Counted ↔ leading dims ≤ Word.greatest := by
  constructor
  · exact fun h => (h _ (List.takeWhile_prefix _)).2
  · rintro h front ⟨rest, rfl⟩
    rw [nonneg_append] at hn
    by_cases hzero : 0 ∈ front
    · rw [List.prod_eq_zero hzero]
      decide
    · rw [leading_append hzero] at h
      have hnonneg : 0 ≤ front.prod := List.prod_nonneg hn.1
      -- the sizes that follow, up to a zero, are positive, so the product only grows
      have hgrow : front.prod ≤ front.prod * leading rest :=
        le_mul_of_one_le_right hnonneg (leading_pos hn.2)
      exact ⟨by rw [Word.least]; omega, hgrow.trans h⟩

/-- Counting goes through where the sizes in front of the first zero leave a word. -/
theorem count_eq (hn : dims.Nonneg) :
    count dims = if leading dims ≤ Word.greatest then .ok dims.prod
      else refuse (.invalidValue (.tooManyElements dims)) := by
  by_cases hle : leading dims ≤ Word.greatest
  · rw [if_pos hle]
    exact count_ok_iff.2 ⟨(counted_iff hn).2 hle, rfl⟩
  · rw [if_neg hle, count]
    cases hcount : count? dims with
    | none => rfl
    | some n => exact absurd ((counted_iff hn).1 (count?_eq_some_iff.1 hcount).1) hle

end Dims

/-! ### Axes made one -/

namespace Dims

/-- The sizes at the positions from `i` to `j`. -/
def span (dims : Dims) (i j : Nat) : Dims := (dims.take (j + 1)).drop i

/-- The sizes with one in place of those at the positions from `i` to `j`. -/
def splice (dims : Dims) (i j : Nat) (size : Int) : Dims := dims.take i ++ [size] ++ dims.drop (j + 1)

end Dims

namespace Reshape

variable {x first last target : ValueInfo} {dims : Dims}

/-- The sizes of a run of axes are counted, and the number stands in place of them. -/
theorem flatten_eq {start stop : Int} (hx : x.asTensor = .ok dims) (hne : dims ≠ [])
    (hfirst : first.asInt = .ok start) (hlast : last.asInt = .ok stop) :
    flatten [x, first, last] = (do
      let i ← Axis.resolve dims.length start
      let j ← Axis.resolve dims.length stop
      if j < i then refuse (.invalidValue (.startAfterEnd i j))
      else do
        let n ← Dims.count (dims.span i j)
        pure [.tensor (dims.splice i j n) x.elem]) := by
  simp only [flatten, Operands.three, pure_bind, hx, hfirst, hlast, Outcome.ok_bind,
    if_neg (mt List.length_eq_zero_iff.1 hne)]
  cases hi : Axis.resolve dims.length start with
  | error halt => rfl
  | ok i =>
    cases hj : Axis.resolve dims.length stop with
    | error halt => rfl
    | ok j =>
      have hlt := Axis.lt_of_resolve hj
      simp only [Outcome.ok_bind]
      split
      · rfl
      · next hle =>
        rw [Dims.between_of_le (Nat.zero_le i) (by omega), Outcome.ok_bind,
          Dims.between_of_le (by omega) hlt, Outcome.ok_bind,
          Dims.between_of_le hlt (Nat.le_refl _), List.drop_zero, List.take_length]
        rfl

/-- Merging all axes counts the elements. -/
theorem flatten_eq_count (hx : x.asTensor = .ok dims) (hr : (dims.length : Int) ≤ Word.greatest)
    (hfirst : first.asInt = .ok 0) (hlast : last.asInt = .ok (-1)) :
    flatten [x, first, last] = (do
      let n ← Dims.count dims
      pure [.tensor [n] x.elem]) := by
  by_cases hne : dims = []
  · subst hne
    simp only [flatten, Operands.three, pure_bind, hx, Outcome.ok_bind]
    rfl
  · have hpos : 0 < dims.length := List.length_pos_iff.2 hne
    have hi : Axis.resolve dims.length 0 = .ok 0 := (Axis.resolve_ok_iff hr).2 ⟨hpos, .inl rfl⟩
    have hj : Axis.resolve dims.length (-1) = .ok (dims.length - 1) :=
      (Axis.resolve_ok_iff hr).2 ⟨by omega, .inr (by omega)⟩
    have hend : dims.length - 1 + 1 = dims.length := by omega
    rw [flatten_eq hx hne hfirst hlast, hi, Outcome.ok_bind, hj, Outcome.ok_bind, if_neg (by omega)]
    simp only [Dims.span, Dims.splice, hend, List.take_length, List.drop_length, List.drop_zero,
      List.take_zero, List.nil_append, List.append_nil]

/-- A target of one free size counts the elements. -/
theorem reshape_eq_count (hx : x.asTensor = .ok dims) (htarget : target.asInts = .ok [-1]) :
    reshape [x, target] = (do
      let n ← Dims.count dims
      pure [.tensor [n] x.elem]) := by
  simp only [reshape_eq_regroup, Operands.two, pure_bind, hx, htarget, Outcome.ok_bind]
  cases hcount : Dims.count dims with
  | error halt => rfl
  | ok n =>
    have htakes : Takes [-1] n := ⟨by decide, by decide, by decide, .inl (by simp [explicit])⟩
    have hresolved : [n] = resolved [-1] n := by simp [resolved, explicit]
    have hregroup := (regroup_ok_iff (Dims.fits_count n hcount)).2 ⟨htakes, hresolved⟩
    rw [Outcome.ok_bind, Outcome.ok_bind, hregroup]
    rfl

/-- What counting comes to, put down as a vector. -/
theorem vector_of_count (hn : dims.Nonneg) (e : Option ElemType) :
    (do let n ← Dims.count dims
        pure [ValueInfo.tensor [n] e])
      = if dims.leading ≤ Word.greatest then .ok [.tensor [dims.prod] e]
        else refuse (.invalidValue (.tooManyElements dims)) := by
  rw [Dims.count_eq hn]
  split
  · rfl
  · rfl

theorem flatten_ok_iff (hx : x.asTensor = .ok dims) (hn : dims.Nonneg)
    (hr : (dims.length : Int) ≤ Word.greatest) (hfirst : first.asInt = .ok 0)
    (hlast : last.asInt = .ok (-1)) {made : List ValueInfo} :
    flatten [x, first, last] = .ok made ↔
      dims.leading ≤ Word.greatest ∧ made = [.tensor [dims.prod] x.elem] := by
  rw [flatten_eq_count hx hr hfirst hlast, vector_of_count hn]
  split
  · next hle => simp [hle, eq_comm]
  · next hle => simp [hle, refuse]

/-- Merging comes to the same in every order of the axes exactly where a tensor with a size of zero has
    other sizes whose product is a word. -/
theorem forall_permute_flatten_iff (hx : x.asTensor = .ok dims) (hn : dims.Nonneg)
    (hr : (dims.length : Int) ≤ Word.greatest) (hfirst : first.asInt = .ok 0)
    (hlast : last.asInt = .ok (-1)) :
    (∀ order y made, AxisOrder.permute [x, order] = .ok [y] →
        (flatten [y, first, last] = .ok made ↔ flatten [x, first, last] = .ok made)) ↔
      (0 ∈ dims → dims.solid ≤ Word.greatest) := by
  rw [← Dims.forall_perm_leading_iff hn (by decide : 1 ≤ Word.greatest)]
  -- a rearranged tensor counts its elements by the same rule
  have hother : ∀ {sizes : Dims}, sizes.Perm dims → ∀ {made},
      flatten [.tensor sizes x.elem, first, last] = .ok made ↔
        sizes.leading ≤ Word.greatest ∧ made = [.tensor [dims.prod] x.elem] := by
    intro sizes hs made
    rw [← hs.prod_eq]
    exact flatten_ok_iff rfl (fun size h => hn size (hs.mem_iff.1 h)) (by rwa [hs.length_eq])
      hfirst hlast
  constructor
  · intro h sizes hs
    obtain ⟨order, horder⟩ := (AxisOrder.exists_permute_iff hx).2 ⟨sizes, hs, rfl⟩
    have hsame := h order _ [.tensor [dims.prod] x.elem] horder
    rw [hother hs, flatten_ok_iff hx hn hr hfirst hlast] at hsame
    simpa using hsame
  · intro h order y made hy
    obtain ⟨sizes, hs, hmade⟩ := (AxisOrder.exists_permute_iff hx).1 ⟨order, hy⟩
    obtain rfl := List.singleton_inj.1 hmade
    rw [hother hs, flatten_ok_iff hx hn hr hfirst hlast, h sizes hs]

end Reshape

/-- ELEMENTS: merging all axes, and reshaping to one free size, go through where the sizes in front of the
    first zero have a product that is a word, and come to the number of elements; elsewhere they are
    refused for its size. So merging comes to the same in every order of the axes exactly where a
    tensor with a size of zero has other sizes whose product is a word. -/
theorem Rule.infer_flatten_reshape_all {x first last target : ValueInfo} {dims : Dims}
    (hx : x.asTensor = .ok dims) (hn : dims.Nonneg) (hr : (dims.length : Int) ≤ Word.greatest)
    (hfirst : first.asInt = .ok 0) (hlast : last.asInt = .ok (-1))
    (htarget : target.asInts = .ok [-1]) :
    Rule.flatten.infer [x, first, last]
      = (if (dims.takeWhile (· ≠ 0)).prod ≤ Word.greatest then .ok [.tensor [dims.prod] x.elem]
        else refuse (.invalidValue (.tooManyElements dims))) ∧
    Rule.reshape.infer [x, target]
      = (if (dims.takeWhile (· ≠ 0)).prod ≤ Word.greatest then .ok [.tensor [dims.prod] x.elem]
        else refuse (.invalidValue (.tooManyElements dims))) ∧
    ((∀ order y made, Rule.permute.infer [x, order] = .ok [y] →
        (Rule.flatten.infer [y, first, last] = .ok made ↔
          Rule.flatten.infer [x, first, last] = .ok made)) ↔
      (0 ∈ dims → (dims.filter (· ≠ 0)).prod ≤ Word.greatest)) := by
  refine ⟨?_, ?_, Reshape.forall_permute_flatten_iff hx hn hr hfirst hlast⟩
  · exact (Reshape.flatten_eq_count hx hr hfirst hlast).trans (Reshape.vector_of_count hn x.elem)
  · exact (Reshape.reshape_eq_count hx htarget).trans (Reshape.vector_of_count hn x.elem)

/-- A tensor without elements is merged where the zero comes first. -/
theorem Rule.infer_flatten_reshape_all_zero_first :
    Rule.flatten.infer [.tensor [0, 4294967296, 4294967296] (some .float), .scalar 0 .int64,
        .scalar (-1) .int64] = .ok [.tensor [0] (some .float)] ∧
    ¬ (∀ order y made,
      Rule.permute.infer [.tensor [0, 4294967296, 4294967296] (some .float), order] = .ok [y] →
        (Rule.flatten.infer [y, .scalar 0 .int64, .scalar (-1) .int64] = .ok made ↔
          Rule.flatten.infer [.tensor [0, 4294967296, 4294967296] (some .float), .scalar 0 .int64,
            .scalar (-1) .int64] = .ok made)) := by
  have hx : (ValueInfo.tensor [0, 4294967296, 4294967296] (some .float)).asTensor
      = .ok [0, 4294967296, 4294967296] := rfl
  have hall := Rule.infer_flatten_reshape_all hx (by decide) (by decide)
    (rfl : (ValueInfo.scalar 0 .int64).asInt = .ok 0)
    (rfl : (ValueInfo.scalar (-1) .int64).asInt = .ok (-1))
    (rfl : (ValueInfo.intList [-1]).asInts = .ok [-1])
  refine ⟨hall.1, fun h => ?_⟩
  have hfits := hall.2.2.1 h (by decide)
  revert hfits
  decide

/-- A tensor without elements that is refused for their number, and merged once its last axis is the
    first. -/
theorem Rule.infer_flatten_zero_last :
    ([4294967296, 4294967296, 0] : Dims).prod = 0 ∧
    Rule.flatten.infer [.tensor [4294967296, 4294967296, 0] (some .float), .scalar 0 .int64,
        .scalar (-1) .int64]
      = refuse (.invalidValue (.tooManyElements [4294967296, 4294967296, 0])) ∧
    Rule.permute.infer [.tensor [4294967296, 4294967296, 0] (some .float), .intList [2, 0, 1]]
      = .ok [.tensor [0, 4294967296, 4294967296] (some .float)] ∧
    Rule.flatten.infer [.tensor [0, 4294967296, 4294967296] (some .float), .scalar 0 .int64,
        .scalar (-1) .int64] = .ok [.tensor [0] (some .float)] :=
  ⟨by decide, rfl, rfl, rfl⟩

end ShapeFlow
