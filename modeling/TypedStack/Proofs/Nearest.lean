import Mathlib.Algebra.Order.Field.Basic
import Mathlib.Algebra.Order.Field.Rat
import Mathlib.Tactic.Linarith
import TypedStack.Proofs.Shortest

/-!
# Nearest magnitudes

What it means that the magnitude of a code is nearest to a rational number of units, that rounding
finds it, and which numbers of units are magnitudes at all: those with no more significant bits than
a fraction and the bit before it have.
-/

namespace TypedStack

namespace Format

/-- The magnitude of the code is nearest to `x` units. If another one is equally near, the code is
even. -/
structure IsNearest (f : Format) (x : ℚ) (code : Nat) : Prop where
  nearest : ∀ c, |f.units code - x| ≤ |f.units c - x|
  even : ∀ c, c ≠ code → |f.units c - x| = |f.units code - x| → code % 2 = 0

variable {f : Format} {x : ℚ} {num den low code c : Nat}

/-- Greater codes stand for no smaller numbers. -/
lemma units_le (h : c ≤ code) : (f.units c : ℚ) ≤ f.units code := by
  exact_mod_cast f.units_strictMono.monotone h

/-- Greater codes stand for greater numbers. -/
lemma units_lt (h : c < code) : (f.units c : ℚ) < f.units code := by
  exact_mod_cast f.units_strictMono h

/-! ## Rounding -/

section
variable (left : f.units low ≤ x) (right : x < f.units (low + 1))

include left in
/-- Codes up to the lower neighbour are below the number. -/
lemma distance_of_le (h : c ≤ low) : |(f.units c : ℚ) - x| = x - f.units c := by
  have := units_le (f := f) h
  rw [abs_of_nonpos (by linarith), neg_sub]

include right in
/-- Codes behind the lower neighbour are above the number. -/
lemma distance_of_lt (h : low < c) : |(f.units c : ℚ) - x| = f.units c - x := by
  have := units_le (f := f) h
  exact abs_of_pos (by linarith)

include left right

/-- In the lower half, and on a tie with an even code, the lower neighbour is the nearest. -/
lemma isNearest_low
    (near : 2 * x < f.units low + f.units (low + 1) ∨
      2 * x = f.units low + f.units (low + 1) ∧ low % 2 = 0) :
    f.IsNearest x low where
  nearest c := by
    rw [distance_of_le left le_rfl]
    rcases Nat.lt_or_ge low c with above | below
    · rw [distance_of_lt right above]
      have := units_le (f := f) above
      rcases near with near | ⟨near, -⟩ <;> linarith
    · rw [distance_of_le left below]
      have := units_le (f := f) below
      linarith
  even c ne tie := by
    rw [distance_of_le left le_rfl] at tie
    rcases Nat.lt_or_gt_of_ne ne with below | above
    · rw [distance_of_le left below.le] at tie
      have := units_lt (f := f) below
      linarith
    · rw [distance_of_lt right above] at tie
      have := units_le (f := f) above
      rcases near with near | ⟨-, even⟩
      · linarith
      · exact even

/-- In the upper half, and on a tie with an odd code, the upper neighbour is the nearest. -/
lemma isNearest_high
    (near : f.units low + f.units (low + 1) < 2 * x ∨
      2 * x = f.units low + f.units (low + 1) ∧ low % 2 = 1) :
    f.IsNearest x (low + 1) where
  nearest c := by
    rw [distance_of_lt right (Nat.lt_succ_self low)]
    rcases Nat.lt_or_ge low c with above | below
    · rw [distance_of_lt right above]
      have := units_le (f := f) above
      linarith
    · rw [distance_of_le left below]
      have := units_le (f := f) below
      rcases near with near | ⟨near, -⟩ <;> linarith
  even c ne tie := by
    rw [distance_of_lt right (Nat.lt_succ_self low)] at tie
    rcases Nat.lt_or_gt_of_ne ne with below | above
    · have below := Nat.le_of_lt_succ below
      rw [distance_of_le left below] at tie
      have := units_le (f := f) below
      rcases near with near | ⟨-, odd⟩
      · linarith
      · omega
    · rw [distance_of_lt right (by omega)] at tie
      have := units_lt (f := f) above
      linarith

end

/-- Rounding finds the nearest magnitude. -/
theorem isNearest_nearestCode (pos : 0 < den) :
    f.IsNearest (num / den) (f.nearestCode num den) := by
  have den_pos : (0 : ℚ) < den := by exact_mod_cast pos
  obtain ⟨low_le, lt_high⟩ := f.floorCode_bounds (num / den)
  rw [Nat.le_div_iff_mul_le pos] at low_le
  rw [Nat.div_lt_iff_lt_mul pos] at lt_high
  rw [nearestCode]
  generalize f.floorCode (num / den) = low at low_le lt_high ⊢
  have left : (f.units low : ℚ) ≤ num / den := by
    rw [le_div_iff₀ den_pos]
    exact_mod_cast low_le
  have right : (num / den : ℚ) < f.units (low + 1) := by
    rw [div_lt_iff₀ den_pos]
    exact_mod_cast lt_high
  -- both distances are compared through twice the quotient
  have sum := Nat.add_mul (f.units low) (f.units (low + 1)) den
  have twice : 2 * (num / den : ℚ) = (2 * num : Nat) / den := by
    rw [Nat.cast_mul, mul_div_assoc]
    rfl
  split
  · next near =>
    refine isNearest_low left right ?_
    rw [twice, div_lt_iff₀ den_pos, div_eq_iff den_pos.ne']
    norm_cast
    omega
  · next far =>
    refine isNearest_high left right ?_
    rw [twice, lt_div_iff₀ den_pos, div_eq_iff den_pos.ne']
    norm_cast
    omega

/-- If the code `c` is odd, numbers halfway between it and the next code are rounded up. -/
lemma IsNearest.lt_iff (near : f.IsNearest x code) (odd : c % 2 = 1) :
    c < code ↔ (f.units c + f.units (c + 1) : ℚ) ≤ 2 * x := by
  have step := units_lt (f := f) (Nat.lt_succ_self c)
  constructor
  · intro lt
    have next : (f.units (c + 1) : ℚ) ≤ f.units code := units_le lt
    have nearest := near.nearest c
    by_contra small
    rw [abs_of_nonneg (by linarith), le_abs] at nearest
    rcases nearest with nearest | nearest <;> linarith
  · intro large
    by_contra ge
    have le : (f.units code : ℚ) ≤ f.units c := units_le (Nat.le_of_not_lt ge)
    have nearest := near.nearest (c + 1)
    rw [abs_of_nonpos (by linarith), neg_sub, le_abs] at nearest
    rcases nearest with nearest | nearest
    · -- the code is `c`, and since both neighbours of `x` are equally near, it is even
      have same : (f.units code : ℚ) = f.units c := le_antisymm le (by linarith)
      obtain rfl : code = c := f.units_strictMono.injective (by exact_mod_cast same)
      have tie : |(f.units (code + 1) : ℚ) - x| = |f.units code - x| := by
        rw [abs_of_nonneg (by linarith), abs_of_nonpos (by linarith), neg_sub]
        linarith
      have even := near.even (code + 1) (Nat.succ_ne_self code) tie
      omega
    · linarith

/-- A number of at least one unit is not rounded to zero. -/
lemma IsNearest.pos (near : f.IsNearest x code) (one : 1 ≤ x) : 0 < code := by
  refine Nat.pos_of_ne_zero ?_
  rintro rfl
  have nearest := near.nearest 1
  have pos := f.fractions_pos
  rw [f.units_eq_self (Nat.zero_le _), f.units_eq_self (by omega), Nat.cast_zero, Nat.cast_one,
    abs_of_nonpos (by linarith), abs_of_nonpos (by linarith)] at nearest
  linarith

end Format

/-! ## Significant bits -/

/-- At most so many significant bits: behind them, the number has only zeros. -/
def SignificantBits (bits n : Nat) : Prop := ∃ m e, m < 2 ^ bits ∧ n = m * 2 ^ e

/-- A small number has few significant bits. -/
lemma SignificantBits.of_lt {bits n : Nat} (small : n < 2 ^ bits) : SignificantBits bits n :=
  ⟨n, 0, small, by rw [pow_zero, Nat.mul_one]⟩

/-- The power of two behind the small numbers has one significant bit. -/
lemma SignificantBits.of_le {bits n : Nat} (small : n ≤ 2 ^ bits) (pos : 0 < bits) :
    SignificantBits bits n := by
  rcases Nat.lt_or_eq_of_le small with lt | rfl
  · exact .of_lt lt
  · exact ⟨1, bits, Nat.one_lt_two_pow pos.ne', (Nat.one_mul _).symm⟩

/-- What few bits have room for, more have, too. -/
lemma SignificantBits.mono {bits bits' n : Nat} (few : SignificantBits bits n) (h : bits ≤ bits') :
    SignificantBits bits' n := by
  obtain ⟨m, e, small, eq⟩ := few
  exact ⟨m, e, small.trans_le (Nat.pow_le_pow_right two_pos h), eq⟩

/-- Zeros behind are not significant. -/
lemma SignificantBits.mul_two_pow {bits n : Nat} (few : SignificantBits bits n) (k : Nat) :
    SignificantBits bits (n * 2 ^ k) := by
  obtain ⟨m, e, small, rfl⟩ := few
  exact ⟨m, e + k, small, by rw [Nat.mul_assoc, ← Nat.pow_add]⟩

/-- Zeros at the end do not count, so they may as well be left out. -/
lemma SignificantBits.of_mul_two_pow {bits n k : Nat} (few : SignificantBits bits (n * 2 ^ k)) :
    SignificantBits bits n := by
  obtain ⟨m, e, small, eq⟩ := few
  rcases Nat.le_total k e with le | le
  · obtain ⟨d, rfl⟩ := Nat.exists_eq_add_of_le le
    refine ⟨m, d, small, Nat.eq_of_mul_eq_mul_right (Nat.two_pow_pos k) ?_⟩
    rw [eq, Nat.pow_add, Nat.mul_comm (2 ^ k), Nat.mul_assoc]
  · obtain ⟨d, rfl⟩ := Nat.exists_eq_add_of_le le
    have divided : n * 2 ^ d = m := by
      refine Nat.eq_of_mul_eq_mul_right (Nat.two_pow_pos e) ?_
      rw [← eq, Nat.pow_add, Nat.mul_comm (2 ^ e), Nat.mul_assoc]
    refine .of_lt ?_
    calc n ≤ n * 2 ^ d := Nat.le_mul_of_pos_right n (Nat.two_pow_pos d)
      _ = m := divided
      _ < 2 ^ bits := small

namespace Format

variable (f : Format)

/-- The fractions of two exponents are a power of two. -/
lemma two_mul_fractions : 2 * f.fractions = 2 ^ (f.fractionBits + 1) := by
  rw [f.fractions_eq, Nat.pow_succ, Nat.mul_comm]

/-- The number of a code has no more significant bits than the format. -/
lemma significantBits_units (code : Nat) : SignificantBits (f.fractionBits + 1) (f.units code) := by
  have fractions := f.two_mul_fractions
  rcases Nat.lt_or_ge code f.fractions with small | large
  · rw [f.units_eq_self (by omega)]
    exact .of_lt (by omega)
  · obtain ⟨shift, q, low, high, rfl⟩ := f.exists_parts large
    rw [f.units_eq_shiftLeft shift low high.le, Nat.shiftLeft_eq]
    exact ⟨q, shift, fractions ▸ high, rfl⟩

/-- With a magnitude, its double is one. -/
lemma exists_units_eq_mul_two (code : Nat) : ∃ c, f.units c = f.units code * 2 := by
  rcases Nat.lt_or_ge code f.fractions with small | large
  · refine ⟨code * 2, ?_⟩
    rw [f.units_eq_self (by omega), f.units_eq_self (by omega)]
  · obtain ⟨shift, q, low, high, rfl⟩ := f.exists_parts large
    refine ⟨(shift + 1) * f.fractions + q, ?_⟩
    rw [f.units_eq_shiftLeft _ low high.le, f.units_eq_shiftLeft _ low high.le, Nat.shiftLeft_eq,
      Nat.shiftLeft_eq, Nat.pow_succ, Nat.mul_assoc]

/-- The magnitudes are the numbers of units that have no more significant bits than a fraction and
the bit before it. -/
theorem exists_units_iff {n : Nat} :
    (∃ code, f.units code = n) ↔ SignificantBits (f.fractionBits + 1) n := by
  constructor
  · rintro ⟨code, rfl⟩
    exact f.significantBits_units code
  · rintro ⟨m, e, small, rfl⟩
    induction e with
    | zero =>
      exact ⟨m, by rw [f.units_eq_self (f.two_mul_fractions ▸ small.le), pow_zero, Nat.mul_one]⟩
    | succ e ih =>
      obtain ⟨code, same⟩ := ih
      obtain ⟨c, double⟩ := f.exists_units_eq_mul_two code
      exact ⟨c, by rw [double, same, Nat.pow_succ, Nat.mul_assoc]⟩

end Format

end TypedStack
