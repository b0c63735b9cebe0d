import Mathlib.Algebra.Group.Nat.Defs
import TypedStack.Binary.Text
import TypedStack.Proofs.DecimalText
import TypedStack.Proofs.Rounding

/-!
# Shortest decimals

The decimal that is written for a magnitude reads as this magnitude: the search accepts no other
one, and if it finds none, the exact decimal of the magnitude is taken. Since its exponent is
moderate, its text is read as the same number, so the text of a floating-point number is read as
this number again.
-/

namespace TypedStack

namespace Decimal

/-- The denominator of a decimal is positive. -/
lemma den_pos (d : Decimal) : 0 < d.den := Nat.pow_pos (by decide)

/-- A decimal whose digits and exponent do not take up more than `n` places. -/
structure Within (n : Nat) (d : Decimal) : Prop where
  digits : d.digits < 10 ^ n
  low : -(n : Int) ≤ d.exponent
  high : d.exponent ≤ n

/-- The point of a decimal within some places is not far off. -/
lemma Within.natAbs_point_le {n : Nat} {d : Decimal} (within : d.Within n) (pos : 0 < n) :
    (d.point - 1).natAbs ≤ 2 * n := by
  have some := Nat.length_toDigits_pos (b := 10) (n := d.digits)
  have few := (Nat.length_toDigits_le_iff (by decide) pos).mpr within.digits
  have low := within.low
  have high := within.high
  rw [point]
  omega

end Decimal

namespace Format

variable (f : Format)

/-- The fractions of an exponent are a power of two. -/
lemma fractions_eq : f.fractions = 2 ^ f.fractionBits := by
  rw [fractions, Nat.shiftLeft_eq, Nat.one_mul]

/-- One is a power of two of units. -/
lemma one_eq : f.one = 2 ^ f.scale := by rw [one, Nat.shiftLeft_eq, Nat.one_mul]

/-- A number of bits that suffices for every magnitude. -/
def reach : Nat := (1 <<< f.exponentBits) + f.fractionBits + 1

/-- The scale is within reach. -/
lemma scale_le_reach : f.scale ≤ f.reach := by
  have half : 1 <<< (f.exponentBits - 1) ≤ 1 <<< f.exponentBits := by
    rw [Nat.shiftLeft_eq, Nat.shiftLeft_eq]
    exact Nat.mul_le_mul_left 1 (Nat.pow_le_pow_right (by decide) (Nat.sub_le _ _))
  rw [scale, reach]
  generalize 1 <<< f.exponentBits = a at half ⊢
  generalize 1 <<< (f.exponentBits - 1) = b at half ⊢
  omega

/-- The number of a finite code is within reach. -/
lemma units_lt_two_pow {code : Nat} (finite : code < f.finiteCodes) :
    f.units code < 2 ^ f.reach := by
  have exponent : code / f.fractions < (1 <<< f.exponentBits) - 1 :=
    Nat.div_lt_of_lt_mul (Nat.mul_comm _ _ ▸ finite)
  have fraction : code % f.fractions < f.fractions := Nat.mod_lt _ f.fractions_pos
  have bits : f.fractionBits + 1 + (code / f.fractions - 1) ≤ f.reach := by
    rw [reach]
    generalize 1 <<< f.exponentBits = exponents at exponent ⊢
    omega
  rw [units]
  split
  · next subnormal =>
    have small : code < f.fractions := (Nat.div_eq_zero_iff_lt f.fractions_pos).mp subnormal
    rw [fractions_eq] at small
    exact small.trans_le (Nat.pow_le_pow_right (by decide) (by omega))
  · calc (f.fractions + code % f.fractions) <<< (code / f.fractions - 1)
        = (f.fractions + code % f.fractions) * 2 ^ (code / f.fractions - 1) := Nat.shiftLeft_eq _ _
      _ < (f.fractions + f.fractions) * 2 ^ (code / f.fractions - 1) :=
          Nat.mul_lt_mul_of_pos_right (Nat.add_lt_add_left fraction _) (Nat.two_pow_pos _)
      _ = 2 ^ f.fractionBits * 2 * 2 ^ (code / f.fractions - 1) := by
        rw [← Nat.mul_two, fractions_eq]
      _ = 2 ^ (f.fractionBits + 1 + (code / f.fractions - 1)) := by rw [Nat.pow_add, Nat.pow_succ]
      _ ≤ 2 ^ f.reach := Nat.pow_le_pow_right (by decide) bits

end Format

namespace Binary

variable {f : Format} {code : Nat} {d d' : Decimal}

/-- Decimals of the same number read alike. -/
lemma readsAs_of_sameNumber (same : d.SameNumber d') (reads : readsAs f code d = true) :
    readsAs f code d' = true := by
  rw [readsAs, beq_iff_eq] at reads ⊢
  rw [← reads]
  refine Format.nearestCode_congr d'.den_pos d.den_pos ?_
  calc d'.num * f.one * d.den
      = d'.num * d.den * f.one := Nat.mul_right_comm _ _ _
    _ = d.num * d'.den * f.one := by rw [← same]
    _ = d.num * f.one * d'.den := Nat.mul_right_comm _ _ _

/-- The exact decimal of a code is read as the code. -/
lemma readsAs_exactDecimal (f : Format) (code : Nat) :
    readsAs f code (exactDecimal f code) = true := by
  have num : (exactDecimal f code).num = f.units code * 5 ^ f.scale := by
    have integral : (-(f.scale : Int)).toNat = 0 := by omega
    rw [exactDecimal, Decimal.num, integral]
    exact Nat.mul_one _
  have den : (exactDecimal f code).den = 10 ^ f.scale := by
    rw [exactDecimal, Decimal.den, Int.neg_neg, Int.toNat_natCast]
    rfl
  have exact : f.units code * 5 ^ f.scale * 2 ^ f.scale = f.units code * 10 ^ f.scale := by
    rw [Nat.mul_assoc, ← Nat.mul_pow]
  rw [readsAs, beq_iff_eq, num, den, f.one_eq, exact]
  exact Format.nearestCode_units code (Nat.pow_pos (by decide))

/-- The search finds nothing but decimals that read as the magnitude. -/
lemma readsAs_shortestFrom (f : Format) (code places : Nat) (exponent : Int) :
    readsAs f code (shortestFrom f code places exponent) = true := by
  induction places generalizing exponent with
  | zero => exact readsAs_exactDecimal f code
  | succ places ih =>
    rw [shortestFrom]
    split
    · next d found => exact List.find?_some found
    · exact ih (exponent - 1)

/-- A decimal that reads as a code is rounded to it. -/
lemma ofDecimal_of_readsAs {code : Fin f.finiteCodes} (negative : Bool)
    (reads : readsAs f code d = true) :
    ofDecimal f negative d = finite negative code := by
  have nearest : f.nearestCode (d.num * f.one) d.den = code := beq_iff_eq.mp reads
  simp only [ofDecimal, round, nearest, code.isLt, dif_pos]

/-! ## Moderate exponents -/

/-- A neighbour has the asked place, and is at most one step of this place above the number. -/
lemma exponent_and_digits_of_mem_neighbours {num den gap : Nat} {exponent : Int}
    (h : d ∈ neighbours num den gap exponent) :
    d.exponent = exponent ∧ d.digits ≤ num * 10 ^ (-exponent).toNat + 1 := by
  have low := Nat.div_le_self (num * 10 ^ (-exponent).toNat) (den * 10 ^ exponent.toNat)
  have either : d = ⟨num * 10 ^ (-exponent).toNat / (den * 10 ^ exponent.toNat), exponent⟩ ∨
      d = ⟨num * 10 ^ (-exponent).toNat / (den * 10 ^ exponent.toNat) + 1, exponent⟩ := by
    simp only [neighbours, Nat.pow_eq] at h
    grind
  rcases either with rfl | rfl
  · exact ⟨rfl, Nat.le_succ_of_le low⟩
  · exact ⟨rfl, Nat.succ_le_succ low⟩

/-- The logarithm of a number up to a power of two. -/
lemma log2_le_of_le {a n : Nat} (h : a ≤ 2 ^ n) : a.log2 ≤ n := by
  rcases Nat.eq_zero_or_pos a with rfl | pos
  · rw [Nat.log2_zero]
    exact Nat.zero_le n
  · exact (Nat.pow_le_pow_iff_right (by decide)).mp ((Nat.log2_self_le pos.ne').trans h)

/-- The leading place of a fraction is bounded by the sizes of its parts. -/
lemma leadingPlace_bounds {num den n : Nat} (hnum : num ≤ 2 ^ n) (hden : den ≤ 2 ^ n) :
    -(n + 2 : Int) ≤ leadingPlace num den ∧ leadingPlace num den ≤ n + 2 := by
  have left := log2_le_of_le ((Nat.div_le_self num den).trans hnum)
  have right := log2_le_of_le ((Nat.div_le_self den num).trans hden)
  rw [leadingPlace]
  split
  · omega
  · omega

/-- Every decimal that the search can come upon, and the exact one, has few digits and a moderate
exponent. -/
lemma within_shortestFrom {n places : Nat} {exponent : Int} (units : f.units code < 10 ^ n)
    (scale : f.scale ≤ n) (low : -(n + 22 : Int) ≤ exponent - places) (high : exponent ≤ n + 22) :
    (shortestFrom f code places exponent).Within (2 * n + 23) := by
  induction places generalizing exponent with
  | zero =>
    -- nothing was found, and the exact decimal is taken
    refine ⟨?_, ?_, ?_⟩
    · calc f.units code * 5 ^ f.scale
          < 10 ^ n * 5 ^ f.scale := Nat.mul_lt_mul_of_pos_right units (Nat.pow_pos (by decide))
        _ ≤ 10 ^ n * 10 ^ n :=
            Nat.mul_le_mul_left _
              ((Nat.pow_le_pow_left (by decide) _).trans (Nat.pow_le_pow_right (by decide) scale))
        _ = 10 ^ (n + n) := (Nat.pow_add 10 n n).symm
        _ ≤ 10 ^ (2 * n + 23) := Nat.pow_le_pow_right (by decide) (by omega)
    · show -((2 * n + 23 : Nat) : Int) ≤ -(f.scale : Int)
      omega
    · show -(f.scale : Int) ≤ ((2 * n + 23 : Nat) : Int)
      omega
  | succ places ih =>
    rw [shortestFrom]
    split
    · next d found =>
      obtain ⟨place, digits⟩ :=
        exponent_and_digits_of_mem_neighbours (List.mem_of_find?_eq_some found)
      refine ⟨?_, by omega, by omega⟩
      calc d.digits
          ≤ f.units code * 10 ^ (-exponent).toNat + 1 := digits
        _ ≤ f.units code * 10 ^ (-exponent).toNat + 10 ^ (-exponent).toNat :=
            Nat.add_le_add_left (Nat.pow_pos (by decide)) _
        _ = (f.units code + 1) * 10 ^ (-exponent).toNat := (Nat.succ_mul _ _).symm
        _ ≤ 10 ^ n * 10 ^ (n + 22) :=
          Nat.mul_le_mul units (Nat.pow_le_pow_right (by decide) (by omega))
        _ = 10 ^ (n + (n + 22)) := (Nat.pow_add 10 n (n + 22)).symm
        _ < 10 ^ (2 * n + 23) := Nat.pow_lt_pow_right (by decide) (by omega)
    · exact ih (by omega) (by omega)

/-- The point of a shortest decimal is not far off. -/
lemma natAbs_point_shortest_le (finite : code < f.finiteCodes) :
    ((shortest f code).point - 1).natAbs ≤ 4 * f.reach + 46 := by
  have units := f.units_lt_two_pow finite
  have one : f.one ≤ 2 ^ f.reach := by
    rw [f.one_eq]
    exact Nat.pow_le_pow_right (by decide) f.scale_le_reach
  obtain ⟨low, high⟩ := leadingPlace_bounds units.le one
  have within : (shortest f code).Within (2 * f.reach + 23) :=
    within_shortestFrom (units.trans_le (Nat.pow_le_pow_left (by decide) _)) f.scale_le_reach
      (by omega) (by omega)
  have bound := within.natAbs_point_le (by omega)
  omega

/-- The text of a finite magnitude reads as this magnitude. -/
lemma exists_read?_shortest (moderate : 4 * f.reach + 46 < 655360) (code : Fin f.finiteCodes)
    (negative : Bool) :
    ∃ d, Decimal.read? (shortest f code).text.toList = some d ∧
      ofDecimal f negative d = finite negative code := by
  obtain ⟨d, read, same⟩ :=
    Decimal.read?_text _ ((natAbs_point_shortest_le code.isLt).trans_lt moderate)
  have reads := readsAs_of_sameNumber same (readsAs_shortestFrom f code 20 _)
  exact ⟨d, read, ofDecimal_of_readsAs negative reads⟩

end Binary

end TypedStack
