/-!
# Binary floating-point formats

The finite magnitudes of a format are numbered by codes `0, 1, 2, …` in increasing order, where a
code is the exponent field followed by the fraction field. Every magnitude is a whole number of
units, one unit being the least positive magnitude, so that all arithmetic on magnitudes is
arithmetic on natural numbers.
-/

namespace TypedStack

/-- A binary interchange format, given by the widths of its exponent and fraction fields. -/
structure Format where
  exponentBits : Nat
  fractionBits : Nat
deriving DecidableEq, Repr

namespace Format

/-- Single precision: 32 bits. -/
def single : Format := ⟨8, 23⟩

/-- Double precision: 64 bits. -/
def double : Format := ⟨11, 52⟩

/-- The number of fractions, hence of magnitudes with the same exponent. -/
def fractions (f : Format) : Nat := 1 <<< f.fractionBits

/-- The number of finite magnitudes, hence the code of infinity. -/
def finiteCodes (f : Format) : Nat := ((1 <<< f.exponentBits) - 1) * f.fractions

/-- One unit is `2 ^ -scale`. -/
def scale (f : Format) : Nat := (1 <<< (f.exponentBits - 1)) + f.fractionBits - 2

/-- The number one, in units. -/
def one (f : Format) : Nat := 1 <<< f.scale

/-- The magnitude of a code, in units. The grid goes on beyond the finite codes as if exponents had
no bound. -/
def units (f : Format) (code : Nat) : Nat :=
  let exponent := code / f.fractions
  if exponent = 0 then code else (f.fractions + code % f.fractions) <<< (exponent - 1)

/-- The greatest code whose magnitude is at most `n` units. -/
def floorCode (f : Format) (n : Nat) : Nat :=
  let shift := n.log2 - f.fractionBits
  shift * f.fractions + n >>> shift

/-- The code of the magnitude nearest to `num / den` units. Of two that are equally near it is the
even one. -/
def nearestCode (f : Format) (num den : Nat) : Nat :=
  let low := f.floorCode (num / den)
  let below := num - f.units low * den
  let above := f.units (low + 1) * den - num
  if below < above ∨ (below = above ∧ low % 2 = 0) then low else low + 1

variable (f : Format)

/-- There is at least one code for each exponent. -/
theorem fractions_pos : 0 < f.fractions := by
  rw [fractions, Nat.shiftLeft_eq, Nat.one_mul]
  exact Nat.two_pow_pos f.fractionBits

/-- Codes of one exponent are equally spaced, and the code behind the last of them still fits the
spacing. -/
theorem units_eq_shiftLeft {q : Nat} (shift : Nat) (low : f.fractions ≤ q)
    (high : q ≤ 2 * f.fractions) :
    f.units (shift * f.fractions + q) = q <<< shift := by
  have pos := f.fractions_pos
  rcases Nat.lt_or_eq_of_le high with lt | rfl
  · have one : q / f.fractions = 1 := Nat.div_eq_of_lt_le (by omega) (by omega)
    have div : (shift * f.fractions + q) / f.fractions = shift + 1 := by
      rw [Nat.add_comm, Nat.add_mul_div_right _ _ pos, one, Nat.add_comm]
    have mod : (shift * f.fractions + q) % f.fractions = q - f.fractions := by
      rw [Nat.add_comm, Nat.add_mul_mod_self_right, Nat.mod_eq_sub_mod low,
        Nat.mod_eq_of_lt (by omega)]
    simp only [units, div, mod]
    rw [if_neg (by omega), Nat.add_sub_cancel' low, Nat.add_sub_cancel]
  · have div : (shift * f.fractions + 2 * f.fractions) / f.fractions = shift + 2 := by
      rw [← Nat.add_mul, Nat.mul_div_cancel _ pos]
    have mod : (shift * f.fractions + 2 * f.fractions) % f.fractions = 0 := by
      rw [← Nat.add_mul, Nat.mul_mod_left]
    simp only [units, div, mod]
    rw [if_neg (by omega), Nat.add_zero]
    simp only [Nat.shiftLeft_eq, Nat.add_sub_cancel (n := shift + 1) (m := 1), Nat.pow_succ]
    rw [Nat.mul_comm (2 ^ shift) 2, ← Nat.mul_assoc, Nat.mul_comm 2]

/-- Below twice the number of fractions a code is its own magnitude. -/
theorem units_eq_self {n : Nat} (h : n ≤ 2 * f.fractions) : f.units n = n := by
  rcases Nat.lt_or_ge n f.fractions with lt | ge
  · simp [units, Nat.div_eq_of_lt lt]
  · simpa using f.units_eq_shiftLeft 0 ge h

/-- The magnitude of `floorCode n` is the greatest one of at most `n` units. -/
theorem floorCode_bounds (n : Nat) :
    f.units (f.floorCode n) ≤ n ∧ n < f.units (f.floorCode n + 1) := by
  have eq : f.fractions = 2 ^ f.fractionBits := by rw [fractions, Nat.shiftLeft_eq, Nat.one_mul]
  rcases Nat.lt_or_ge f.fractionBits n.log2 with large | small
  · have ne : n ≠ 0 := by
      rintro rfl
      simp at large
    -- the leading bits of `n` are a fraction of the format, and `shift` bits follow them
    obtain ⟨shift, hs⟩ : ∃ shift, n.log2 = f.fractionBits + shift :=
      ⟨n.log2 - f.fractionBits, by omega⟩
    have lower : f.fractions <<< shift ≤ n := by
      rw [eq, Nat.shiftLeft_eq, ← Nat.pow_add, ← hs]
      exact Nat.log2_self_le ne
    have upper : n < (2 * f.fractions) <<< shift := by
      rw [eq, Nat.shiftLeft_eq, Nat.mul_assoc, ← Nat.pow_add, ← hs, Nat.mul_comm, ← Nat.pow_succ]
      exact Nat.lt_log2_self
    rw [Nat.shiftLeft_eq] at lower upper
    have low : f.fractions ≤ n >>> shift := by
      rw [Nat.shiftRight_eq_div_pow]
      exact (Nat.le_div_iff_mul_le (Nat.two_pow_pos shift)).2 lower
    have high : n >>> shift < 2 * f.fractions := by
      rw [Nat.shiftRight_eq_div_pow]
      exact Nat.div_lt_of_lt_mul (Nat.mul_comm _ _ ▸ upper)
    have code : f.floorCode n = shift * f.fractions + n >>> shift := by
      simp [floorCode, hs]
    rw [code, Nat.add_assoc, f.units_eq_shiftLeft shift low (Nat.le_of_lt high),
      f.units_eq_shiftLeft shift (Nat.le_succ_of_le low) high, Nat.shiftRight_eq_div_pow,
      Nat.shiftLeft_eq, Nat.shiftLeft_eq]
    exact ⟨Nat.div_mul_le_self n _,
      Nat.mul_comm _ _ ▸ Nat.lt_mul_div_succ n (Nat.two_pow_pos shift)⟩
  · -- so small a number is its own code
    have bound : n < 2 * f.fractions := by
      rw [eq, Nat.mul_comm, ← Nat.pow_succ]
      exact Nat.lt_of_lt_of_le Nat.lt_log2_self (Nat.pow_le_pow_right (by decide) (by omega))
    have self : f.floorCode n = n := by simp [floorCode, Nat.sub_eq_zero_of_le small]
    rw [self, f.units_eq_self (Nat.le_of_lt bound), f.units_eq_self bound]
    omega

end Format

end TypedStack
