import Mathlib.Order.Monotone.Basic
import Mathlib.Tactic.Lemma
import TypedStack.Binary.Basic

/-!
# Rounding

Codes number the magnitudes of a format in increasing order. The code nearest to a quotient depends
on the quotient only, not on how it is written as a fraction, and a magnitude is nearest to itself.
-/

namespace TypedStack.Format

variable (f : Format)

/-- Behind the subnormal ones, a code is an exponent and a fraction with the bit before it. -/
lemma exists_parts {code : Nat} (large : f.fractions ≤ code) :
    ∃ shift q, f.fractions ≤ q ∧ q < 2 * f.fractions ∧ code = shift * f.fractions + q := by
  have pos := f.fractions_pos
  have field : 1 ≤ code / f.fractions := (Nat.one_le_div_iff pos).mpr large
  have rest := Nat.mod_lt code pos
  obtain ⟨shift, hshift⟩ : ∃ shift, code / f.fractions = shift + 1 :=
    ⟨code / f.fractions - 1, by omega⟩
  refine ⟨shift, f.fractions + code % f.fractions, by omega, by omega, ?_⟩
  have h := Nat.div_add_mod code f.fractions
  rw [hshift, Nat.mul_succ, Nat.mul_comm] at h
  omega

/-- The next code stands for a greater number. -/
lemma units_lt_units_succ (code : Nat) : f.units code < f.units (code + 1) := by
  rcases Nat.lt_or_ge code f.fractions with small | large
  · rw [f.units_eq_self (by omega), f.units_eq_self (by omega)]
    exact Nat.lt_succ_self code
  · obtain ⟨shift, q, low, high, rfl⟩ := f.exists_parts large
    rw [Nat.add_assoc, f.units_eq_shiftLeft shift low high.le,
      f.units_eq_shiftLeft shift (by omega) high, Nat.shiftLeft_eq, Nat.shiftLeft_eq]
    exact Nat.mul_lt_mul_of_pos_right (Nat.lt_succ_self q) (Nat.two_pow_pos shift)

/-- A greater code has a greater magnitude. -/
lemma units_strictMono : StrictMono f.units := strictMono_nat_of_lt_succ f.units_lt_units_succ

/-- All codes but the first stand for positive numbers. -/
lemma units_pos {code : Nat} (ne : code ≠ 0) : 0 < f.units code :=
  Nat.zero_lt_of_lt (f.units_strictMono (Nat.pos_of_ne_zero ne))

/-- The number of a code has that code. -/
lemma floorCode_units (code : Nat) : f.floorCode (f.units code) = code := by
  obtain ⟨le, lt⟩ := f.floorCode_bounds (f.units code)
  have h₁ := f.units_strictMono.le_iff_le.mp le
  have h₂ := f.units_strictMono.lt_iff_lt.mp lt
  exact Nat.le_antisymm h₁ (Nat.le_of_lt_succ h₂)

variable {f} {num den num' den' : Nat}

/-- A fraction may be expanded before it is rounded. -/
lemma nearestCode_mul_right {k : Nat} (pos : 0 < k) :
    f.nearestCode (num * k) (den * k) = f.nearestCode num den := by
  simp only [nearestCode, Nat.mul_div_mul_right num den pos, ← Nat.mul_assoc, ← Nat.sub_mul,
    Nat.mul_lt_mul_right pos, Nat.mul_left_inj (Nat.ne_of_gt pos)]

/-- Equal quotients have the same nearest code. -/
lemma nearestCode_congr (pos : 0 < den) (pos' : 0 < den') (h : num * den' = num' * den) :
    f.nearestCode num den = f.nearestCode num' den' := by
  rw [← nearestCode_mul_right pos', h, Nat.mul_comm den den', nearestCode_mul_right pos]

/-- A magnitude is nearest to itself. -/
lemma nearestCode_units (code : Nat) (pos : 0 < den) :
    f.nearestCode (f.units code * den) den = code := by
  have low : f.floorCode (f.units code * den / den) = code := by
    rw [Nat.mul_div_cancel _ pos, floorCode_units]
  have above : 0 < f.units (code + 1) * den - f.units code * den := by
    rw [← Nat.sub_mul]
    exact Nat.mul_pos (Nat.sub_pos_of_lt (f.units_lt_units_succ code)) pos
  simp only [nearestCode, low, Nat.sub_self]
  exact if_pos (.inl above)

end TypedStack.Format
