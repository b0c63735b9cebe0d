import TypedStack.Operand
import TypedStack.Proofs.Nearest

/-!
# Quantities

What a number stands for, apart from its kind: a rational number with a sign, which zero has too, an
infinity, or nothing. Numbers of one kind that stand for the same are equal. Rounding gives a number
that stands for the exact result if there is one, the nearest one if there is none, and an infinity
from halfway between the greatest number and the next one on.
-/

namespace TypedStack

/-- What a number stands for. -/
inductive Quantity where
  | nan
  | infinite (negative : Bool)
  | finite (negative : Bool) (value : ℚ)

/-- A magnitude with a sign. -/
def withSign (negative : Bool) (x : ℚ) : ℚ := if negative then -x else x

/-- The magnitude of a code. -/
def Format.magnitude (f : Format) (code : Nat) : ℚ := f.units code / f.one

/-- From this magnitude on, which lies halfway between the greatest number and the next power of
two, numbers are rounded to infinity. -/
def Precision.bound : Precision → ℚ
  | .single => 2 ^ 128 - 2 ^ 103
  | .double => 2 ^ 1024 - 2 ^ 970

namespace Binary

variable {f : Format}

/-- What a floating-point number stands for. -/
def quantity : Binary f → Quantity
  | nan => .nan
  | infinite s => .infinite s
  | finite s code => .finite s (withSign s (f.magnitude code))

/-- The last bit of the fraction is zero. -/
def IsEven : Binary f → Prop
  | finite _ code => code.val % 2 = 0
  | _ => False

/-- A finite number that is nearest to `x`. If another one is equally near, it is even. -/
def IsNearest (x : ℚ) (z : Binary f) : Prop :=
  ∃ s v, z.quantity = .finite s v ∧ ∀ (y : Binary f) t u, y.quantity = .finite t u →
    |v - x| ≤ |u - x| ∧ (|u - x| = |v - x| → u = v ∨ z.IsEven)

end Binary

namespace Value

/-- What a number of any kind stands for. -/
def quantity : {k : Kind} → Value k → Quantity
  | .integer _, a => .finite (BitVec.toInt a < 0) (BitVec.toInt a)
  | .floating _, x => Binary.quantity x

end Value

/-- What an operand stands for. -/
def Operand.quantity (x : Operand) : Quantity := x.value.quantity

/-! ## Magnitudes -/

/-- An integer is its magnitude with its sign. -/
lemma withSign_natAbs (n : Int) : withSign (n < 0) n.natAbs = n := by
  have signed : ((if decide (n < 0) = true then -(n.natAbs : Int) else n.natAbs : Int) : ℚ) =
      n := by
    rw [Numeral.signed_natAbs]
  rw [← signed, withSign]
  split
  · rw [Int.cast_neg, Int.cast_natCast]
  · rw [Int.cast_natCast]

/-- Zero has no sign. -/
lemma withSign_zero (s : Bool) : withSign s 0 = 0 := by
  cases s with
  | false => rfl
  | true => exact neg_zero

/-- A sign put twice is no sign. -/
lemma withSign_withSign (s : Bool) (x : ℚ) : withSign s (withSign s x) = x := by
  cases s with
  | false => rfl
  | true => exact neg_neg x

/-- With one sign, numbers are equal if their magnitudes are. -/
lemma withSign_injective (s : Bool) : Function.Injective (withSign s) := by
  cases s with
  | false => exact fun _ _ h => h
  | true => exact neg_injective

/-- Only zero is zero with a sign. -/
lemma withSign_eq_zero_iff {s : Bool} {x : ℚ} : withSign s x = 0 ↔ x = 0 :=
  (withSign_injective s).eq_iff' (withSign_zero s)

/-- Only zero is the same with both signs. -/
lemma eq_zero_of_withSign_eq {s t : Bool} {x : ℚ} (ne : s ≠ t) (h : withSign s x = withSign t x) :
    x = 0 := by
  cases s <;> cases t
  · exact absurd rfl ne
  · exact self_eq_neg.mp h
  · exact neg_eq_self.mp h
  · exact absurd rfl ne

/-- The sign of a product. -/
lemma withSign_mul (s t : Bool) (x y : ℚ) :
    withSign s x * withSign t y = withSign (s ^^ t) (x * y) := by
  cases s <;> cases t
  · rfl
  · exact mul_neg x y
  · exact neg_mul x y
  · exact neg_mul_neg x y

/-- The sign of a quotient. -/
lemma withSign_div (s t : Bool) (x y : ℚ) :
    withSign s x / withSign t y = withSign (s ^^ t) (x / y) := by
  cases s <;> cases t
  · rfl
  · exact div_neg x
  · exact neg_div y x
  · exact neg_div_neg_eq x y

/-- Numbers of one sign are added by their magnitudes. -/
lemma withSign_add (s : Bool) (x y : ℚ) : withSign s x + withSign s y = withSign s (x + y) := by
  cases s with
  | false => rfl
  | true => exact (neg_add x y).symm

/-- A sign does not change the absolute value. -/
lemma abs_withSign (s : Bool) (x : ℚ) : |withSign s x| = |x| := by
  cases s with
  | false => rfl
  | true => exact abs_neg x

/-- Numbers of one sign are as far apart as their magnitudes. -/
lemma abs_withSign_sub (s : Bool) (x y : ℚ) : |withSign s x - withSign s y| = |x - y| := by
  cases s with
  | false => rfl
  | true =>
    show |(-x) - (-y)| = |x - y|
    rw [neg_sub_neg, abs_sub_comm]

/-- Numbers of different signs are as far apart as their magnitudes together. -/
lemma abs_withSign_sub_of_ne {s t : Bool} {x y : ℚ} (hx : 0 ≤ x) (hy : 0 ≤ y) (ne : t ≠ s) :
    |withSign t x - withSign s y| = x + y := by
  cases s <;> cases t
  · exact absurd rfl ne
  · show |-x - y| = x + y
    rw [abs_of_nonpos (by linarith)]
    linarith
  · show |x - -y| = x + y
    rw [abs_of_nonneg (by linarith)]
    linarith
  · exact absurd rfl ne

namespace Format

/-- One is a positive number of units. -/
lemma one_pos (f : Format) : (0 : ℚ) < f.one := by
  rw [f.one_eq]
  positivity

/-- No magnitude is negative. -/
lemma magnitude_nonneg (f : Format) (code : Nat) : 0 ≤ f.magnitude code := by
  rw [magnitude]
  exact div_nonneg (Nat.cast_nonneg _) f.one_pos.le

/-- The first code stands for zero. -/
lemma magnitude_zero (f : Format) : f.magnitude 0 = 0 := by
  rw [magnitude, f.units_eq_self (Nat.zero_le _), Nat.cast_zero, zero_div]

/-- Greater codes have greater magnitudes. -/
lemma magnitude_strictMono (f : Format) : StrictMono f.magnitude := by
  intro c d h
  exact div_lt_div_of_pos_right (units_lt h) f.one_pos

/-- No two codes have the same magnitude. -/
lemma magnitude_injective (f : Format) : Function.Injective f.magnitude :=
  f.magnitude_strictMono.injective

/-- Only the first code stands for zero. -/
lemma magnitude_eq_zero_iff (f : Format) {code : Nat} : f.magnitude code = 0 ↔ code = 0 :=
  f.magnitude_injective.eq_iff' f.magnitude_zero

/-- Distances between magnitudes are distances between numbers of units. -/
lemma abs_magnitude_sub (f : Format) (x : ℚ) (c : Nat) :
    |f.magnitude c - x| = |f.units c - x * f.one| / f.one := by
  have pos := f.one_pos
  have units : f.magnitude c - x = (f.units c - x * f.one) / f.one := by
    rw [magnitude, sub_div, mul_div_cancel_right₀ x pos.ne']
  rw [units, abs_div, abs_of_pos pos]

end Format

namespace Binary

variable {f : Format} {s : Bool} {x : ℚ}

/-- Numbers that stand for the same are equal. -/
lemma quantity_injective : Function.Injective (quantity (f := f)) := by
  intro x y h
  cases x with
  | nan =>
    cases y with
    | nan => rfl
    | infinite _ => cases h
    | finite _ _ => cases h
  | infinite s =>
    cases y with
    | nan => cases h
    | infinite t =>
      cases h
      rfl
    | finite _ _ => cases h
  | finite s c =>
    cases y with
    | nan => cases h
    | infinite _ => cases h
    | finite t d =>
      obtain ⟨rfl, value⟩ := Quantity.finite.inj h
      have same := f.magnitude_injective (withSign_injective s value)
      rw [Fin.ext same]

/-- What stands for a finite number has a code. -/
lemma exists_code_of_quantity {z : Binary f} (h : z.quantity = .finite s x) :
    ∃ code, z = finite s code ∧ withSign s (f.magnitude code) = x := by
  cases z with
  | nan => cases h
  | infinite _ => cases h
  | finite s code =>
    obtain ⟨rfl, value⟩ := Quantity.finite.inj h
    exact ⟨code, rfl, value⟩

/-- A magnitude that is nearest to another is so with its sign as well. -/
lemma isNearest_finite {code : Fin f.finiteCodes} (near : f.IsNearest (x * f.one) code)
    (nonneg : 0 ≤ x) :
    (finite s code).IsNearest (withSign s x) := by
  have nearest : ∀ c, |f.magnitude code - x| ≤ |f.magnitude c - x| := by
    intro c
    rw [f.abs_magnitude_sub, f.abs_magnitude_sub]
    exact div_le_div_of_nonneg_right (near.nearest c) f.one_pos.le
  have even : ∀ c, c ≠ code.val → |f.magnitude c - x| = |f.magnitude code - x| →
      code.val % 2 = 0 := by
    intro c ne tie
    rw [f.abs_magnitude_sub, f.abs_magnitude_sub] at tie
    exact near.even c ne ((div_left_inj' f.one_pos.ne').mp tie)
  refine ⟨s, _, rfl, ?_⟩
  intro y t u hy
  obtain ⟨c, -, rfl⟩ := exists_code_of_quantity hy
  rw [abs_withSign_sub]
  by_cases same : t = s
  · subst same
    rw [abs_withSign_sub]
    refine ⟨nearest c, fun tie => ?_⟩
    by_cases eq : c = code
    · exact .inl (by rw [eq])
    · exact .inr (even c (fun h => eq (Fin.ext h)) tie)
  · -- zero is at least as near as a number of the other sign
    have zero := nearest 0
    have positive := f.magnitude_nonneg c
    rw [f.magnitude_zero, zero_sub, abs_neg, abs_of_nonneg nonneg] at zero
    rw [abs_withSign_sub_of_ne positive nonneg same]
    refine ⟨by linarith, fun tie => ?_⟩
    have none : f.magnitude c = 0 := by linarith
    by_cases eq : code.val = 0
    · left
      rw [none, eq, f.magnitude_zero, withSign_zero, withSign_zero]
    · refine .inr (even 0 (Ne.symm eq) ?_)
      rw [f.magnitude_zero, zero_sub, abs_neg, abs_of_nonneg nonneg]
      linarith

/-! ## Rounding -/

variable {num den : Nat}

/-- A number with a finite nearest code is rounded to it. -/
lemma round_of_lt (finite : f.nearestCode num den < f.finiteCodes) :
    round f s num den = .finite s ⟨f.nearestCode num den, finite⟩ := dif_pos finite

/-- A number behind all finite codes is rounded to infinity. -/
lemma round_of_ge (large : f.finiteCodes ≤ f.nearestCode num den) :
    round f s num den = infinite s :=
  dif_neg (Nat.not_lt.mpr large)

/-- Only a number behind all finite codes is rounded to infinity. -/
lemma isInfinite_round_iff :
    (round f s num den).isInfinite = true ↔ f.finiteCodes ≤ f.nearestCode num den := by
  rcases Nat.lt_or_ge (f.nearestCode num den) f.finiteCodes with small | large
  · rw [round_of_lt small]
    exact iff_of_false nofun (Nat.not_le.mpr small)
  · rw [round_of_ge large]
    exact iff_of_true rfl large

/-- What is not rounded to infinity is rounded to the nearest number. -/
theorem isNearest_round (pos : 0 < den) (finite : (round f s num den).isInfinite = false) :
    (round f s num den).IsNearest (withSign s (num / den / f.one)) := by
  have small : f.nearestCode num den < f.finiteCodes := by
    rw [← Nat.not_le, ← isInfinite_round_iff (s := s), finite]
    exact Bool.false_ne_true
  rw [round_of_lt small]
  refine isNearest_finite ?_ ?_
  · rw [div_mul_cancel₀ _ f.one_pos.ne']
    exact Format.isNearest_nearestCode pos
  · exact div_nonneg (div_nonneg (Nat.cast_nonneg _) (Nat.cast_nonneg _)) f.one_pos.le

/-- A number of units with few significant bits is not changed by rounding. -/
theorem quantity_round_of_significantBits {n : Nat} (pos : 0 < den)
    (few : SignificantBits (f.fractionBits + 1) n) (small : n < f.units f.finiteCodes) :
    (round f s (n * den) den).quantity = .finite s (withSign s (n / f.one)) := by
  obtain ⟨code, rfl⟩ := f.exists_units_iff.mpr few
  have nearest : f.nearestCode (f.units code * den) den = code := Format.nearestCode_units code pos
  have finite : f.nearestCode (f.units code * den) den < f.finiteCodes := by
    rw [nearest]
    exact f.units_strictMono.lt_iff_lt.mp small
  rw [round_of_lt finite]
  show Quantity.finite s (withSign s (f.magnitude (f.nearestCode (f.units code * den) den))) = _
  rw [nearest, Format.magnitude]

end Binary

/-! ## The bound of a precision -/

/-- The middle between the last finite code and the one behind it, from a sum of integers. -/
lemma Format.units_add_units {f : Format} {a b : Nat}
    (h : f.units (f.finiteCodes - 1) + f.units f.finiteCodes + 2 * (2 ^ b * f.one) =
      2 * (2 ^ a * f.one)) :
    (f.units (f.finiteCodes - 1) + f.units f.finiteCodes : ℚ) = 2 * ((2 ^ a - 2 ^ b) * f.one) := by
  have rational : (f.units (f.finiteCodes - 1) + f.units f.finiteCodes + 2 * (2 ^ b * f.one) : ℚ) =
      2 * (2 ^ a * f.one) := by exact_mod_cast h
  rw [sub_mul]
  linarith

namespace Precision

/-- The bound of a precision is the middle between its last finite code and the one behind. -/
lemma units_add_units (p : Precision) :
    (p.format.units (p.format.finiteCodes - 1) + p.format.units p.format.finiteCodes : ℚ) =
      2 * (p.bound * p.format.one) := by
  cases p with
  | single => exact Format.units_add_units (f := .single) (by decide +kernel)
  | double => exact Format.units_add_units (f := .double) (by decide +kernel)

/-- The greatest finite code is odd. -/
lemma exists_greatest (p : Precision) : ∃ c, p.format.finiteCodes = c + 1 ∧ c % 2 = 1 := by
  refine ⟨p.format.finiteCodes - 1, ?_⟩
  cases p <;> decide

/-- Numbers are rounded to infinity from the bound on. -/
theorem isInfinite_round_iff_bound_le (p : Precision) {s : Bool} {num den : Nat} (pos : 0 < den) :
    (Binary.round p.format s num den).isInfinite = true ↔ p.bound ≤ num / den / p.format.one := by
  obtain ⟨c, greatest, odd⟩ := p.exists_greatest
  have sum := p.units_add_units
  rw [greatest, Nat.add_sub_cancel] at sum
  have near : p.format.IsNearest _ (p.format.nearestCode num den) :=
    Format.isNearest_nearestCode pos
  rw [Binary.isInfinite_round_iff, greatest, Nat.succ_le_iff, near.lt_iff odd, sum,
    mul_le_mul_iff_right₀ two_pos, le_div_iff₀ p.format.one_pos]

end Precision

end TypedStack
