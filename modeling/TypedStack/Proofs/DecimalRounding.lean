import TypedStack.Proofs.Quantity
import TypedStack.Proofs.ValueGrammar

/-!
# Rounding of written numbers

A number that is written with digits, and perhaps a point among them, is read as the floating-point
number nearest to it, or as an infinity if it reaches the bound of the precision. It keeps its sign
even if it is rounded to zero. Exactly one number of a precision is what an exact number is rounded
to, so that there is no other way to read a written number.
-/

namespace TypedStack

/-! ## Correct rounding -/

/-- What the exact number `x` is rounded to in a precision. The sign is given apart, because zero
has one too. -/
inductive Precision.RoundsTo (p : Precision) (negative : Bool) (x : ℚ) :
    Binary p.format → Prop where
  | infinite : p.bound ≤ |x| → RoundsTo p negative x (.infinite negative)
  | finite {code : Fin p.format.finiteCodes} :
    |x| < p.bound → (Binary.finite negative code).IsNearest x →
      RoundsTo p negative x (.finite negative code)

namespace Binary

variable {f : Format} {s : Bool} {x : ℚ}

/-- A finite number is at most as far from `x` as another one of its sign. If it is not nearer, it
is even. -/
lemma IsNearest.of_finite {c : Fin f.finiteCodes} (near : (finite s c).IsNearest (withSign s x))
    (d : Fin f.finiteCodes) :
    |f.magnitude c - x| ≤ |f.magnitude d - x| ∧
      (|f.magnitude d - x| = |f.magnitude c - x| → d = c ∨ c.val % 2 = 0) := by
  obtain ⟨_, _, ⟨⟩, nearest⟩ := near
  obtain ⟨le, tie⟩ := nearest (finite s d) s _ rfl
  rw [abs_withSign_sub, abs_withSign_sub] at le tie
  refine ⟨le, fun same => ?_⟩
  rcases tie same with eq | even
  · exact .inl (Fin.ext (f.magnitude_injective (withSign_injective s eq)))
  · exact .inr even

/-- Of two nearest numbers, both would be even, and a number between them would be nearer. -/
lemma IsNearest.code_le {c d : Fin f.finiteCodes} (hc : (finite s c).IsNearest (withSign s x))
    (hd : (finite s d).IsNearest (withSign s x)) : d ≤ c := by
  by_contra lt
  have lt : c < d := not_le.mp lt
  obtain ⟨le, even⟩ := hc.of_finite d
  obtain ⟨ge, even'⟩ := hd.of_finite c
  have tie := le_antisymm le ge
  have hc_even : c.val % 2 = 0 := (even tie.symm).resolve_left lt.ne'
  have hd_even : d.val % 2 = 0 := (even' tie).resolve_left lt.ne
  have between : c.val + 1 < d.val := by
    have : c.val < d.val := lt
    omega
  obtain ⟨nearer, -⟩ := hc.of_finite ⟨c.val + 1, between.trans d.isLt⟩
  have above : f.magnitude c < f.magnitude (c.val + 1) :=
    f.magnitude_strictMono (Nat.lt_succ_self c.val)
  have below : f.magnitude (c.val + 1) < f.magnitude d := f.magnitude_strictMono between
  -- `x` is the midpoint of both
  rcases abs_eq_abs.mp tie with same | middle
  · linarith
  · rw [abs_of_neg (by linarith), le_abs] at nearer
    rcases nearer with nearer | nearer <;> linarith

/-- There is one nearest code, since of two neighbours one is even. -/
lemma IsNearest.unique {c d : Fin f.finiteCodes} (hc : (finite s c).IsNearest x)
    (hd : (finite s d).IsNearest x) :
    c = d := by
  rw [← withSign_withSign s x] at hc hd
  exact le_antisymm (hd.code_le hc) (hc.code_le hd)

end Binary

namespace Precision

variable {p : Precision} {s : Bool} {x : ℚ} {y z : Binary p.format}

/-- An exact number is rounded to one number only. -/
theorem RoundsTo.unique (hy : p.RoundsTo s x y) (hz : p.RoundsTo s x z) : y = z := by
  cases hy with
  | infinite large =>
    cases hz with
    | infinite _ => rfl
    | finite small _ => exact absurd large (not_le.mpr small)
  | finite small near =>
    cases hz with
    | infinite large => exact absurd large (not_le.mpr small)
    | finite _ near' => rw [near.unique near']

/-- What reaches the bound is rounded to infinity. -/
lemma RoundsTo.isInfinite_iff (rounds : p.RoundsTo s x z) :
    z.isInfinite = true ↔ p.bound ≤ |x| := by
  cases rounds with
  | infinite large => exact iff_of_true rfl large
  | finite small _ => exact iff_of_false nofun (not_le.mpr small)

/-- What is below the bound is rounded to a finite number. -/
lemma RoundsTo.isFinite_iff (rounds : p.RoundsTo s x z) : z.isFinite = true ↔ |x| < p.bound := by
  cases rounds with
  | infinite large => exact iff_of_false nofun (not_lt.mpr large)
  | finite small _ => exact iff_of_true rfl small

/-- Numbers of units are rounded so. -/
lemma roundsTo_round {num den : Nat} (pos : 0 < den) :
    p.RoundsTo s (withSign s (num / den / p.format.one)) (Binary.round p.format s num den) := by
  have infinite_iff : (Binary.round p.format s num den).isInfinite = true ↔
      p.bound ≤ |withSign s (num / den / p.format.one)| := by
    rw [abs_withSign, abs_of_nonneg (by positivity)]
    exact p.isInfinite_round_iff_bound_le pos
  rcases Nat.lt_or_ge (p.format.nearestCode num den) p.format.finiteCodes with small | large
  · have finite : (Binary.round p.format s num den).isInfinite = false := by
      rw [Binary.round_of_lt small]
      rfl
    have below : ¬ p.bound ≤ |withSign s (num / den / p.format.one)| := by
      rw [← infinite_iff, finite]
      exact Bool.false_ne_true
    have near := Binary.isNearest_round pos finite
    rw [Binary.round_of_lt small] at near ⊢
    exact .finite (not_le.mp below) near
  · have above := infinite_iff.mp (Binary.isInfinite_round_iff.mpr large)
    rw [Binary.round_of_ge large]
    exact .infinite above

/-- A decimal is rounded once, from its exact value. -/
lemma roundsTo_ofDecimal (d : Decimal) :
    p.RoundsTo s (withSign s (d.num / d.den)) (Binary.ofDecimal p.format s d) := by
  have units : ((d.num * p.format.one : Nat) : ℚ) / d.den / p.format.one = d.num / d.den := by
    rw [Nat.cast_mul, mul_div_right_comm, mul_div_cancel_right₀ _ p.format.one_pos.ne']
  rw [← units]
  exact roundsTo_round d.den_pos

end Precision

/-! ## Written numbers -/

namespace Numeral

/-- The number of digits around a point. Those behind it count parts of a power of ten. -/
def magnitude (cs : List Char) : ℚ :=
  value (wholePart cs) + value (fractionPart cs) / 10 ^ (fractionPart cs).length

/-- The exact number of digits around a point, behind an optional minus. -/
def rational (cs : List Char) : ℚ := withSign (isNegative cs) (magnitude (unsigned cs))

/-- Digits behind digits count with the place of those before. -/
lemma value_append (cs cs' : List Char) :
    value (cs ++ cs') = value cs * 10 ^ cs'.length + value cs' := by
  rw [value, List.reverse_append, List.map_append, Nat.ofDigits_append, List.length_map,
    List.length_reverse, ← value, ← value, Nat.mul_comm, Nat.add_comm]

end Numeral

namespace Literal

open Numeral

variable {k : Kind} {cs : List Char}

/-- A number is read as a decimal of exactly this magnitude. -/
lemma Parts.num_div_den {d : Decimal} (parts : Parts k cs)
    (read : Decimal.read? (unsigned cs) = some d) :
    (d.num / d.den : ℚ) = magnitude (unsigned cs) := by
  rw [parts.read?_unsigned] at read
  obtain rfl := Option.some.inj read
  rw [magnitude]
  generalize wholePart (unsigned cs) = whole
  generalize fractionPart (unsigned cs) = fraction
  have den : Decimal.den ⟨natOfDigits (whole ++ fraction), -fraction.length⟩ =
      10 ^ fraction.length := by
    rw [Decimal.den, neg_neg, Int.toNat_natCast]
    rfl
  have num : Decimal.num ⟨natOfDigits (whole ++ fraction), -fraction.length⟩ =
      natOfDigits (whole ++ fraction) := by
    have integral : (-(fraction.length : Int)).toNat = 0 := by omega
    rw [Decimal.num, integral]
    exact Nat.mul_one _
  have pos : (10 ^ fraction.length : ℚ) ≠ 0 := by positivity
  rw [num, den, natOfDigits_eq_value, value_append]
  push_cast
  rw [add_div, mul_div_cancel_right₀ _ pos]

/-- A number of the right form is always read, and as the one number to which its exact value is
rounded: the nearest one, of two that are equally near the even one, with the sign that is written,
or an infinity from the bound of the precision on. So exactly the numbers below the bound are
accepted as values, however many digits they have, and the others are out of range. -/
theorem read_decimal_rounds_once (p : Precision) (d : String)
    (formed : d.toList ∈ (form (.floating p)).matches') :
    let x := rational d.toList
    let word := (Kind.floating p).name ++ "(" ++ d ++ ")"
    (∃ z : Binary p.format, Operand.read (.floating p) d = .ok ⟨.floating p, z⟩ ∧
      (∀ y, p.RoundsTo (isNegative d.toList) x y ↔ y = z) ∧ (z.isInfinite = true ↔ p.bound ≤ |x|)) ∧
    (parse word = .error (.literalOutOfRange (.floating p) d) ↔ p.bound ≤ |x|) ∧
    (parse word = .ok ⟨.floating p, d⟩ ↔ |x| < p.bound) := by
  intro x word
  have parts := mem_form_iff.mp formed
  obtain ⟨decimal, hdecimal, read⟩ := parts.read_floating
  have rounds : p.RoundsTo (isNegative d.toList) x
      (Binary.ofDecimal p.format (isNegative d.toList) decimal) := by
    have once := p.roundsTo_ofDecimal (s := isNegative d.toList) decimal
    rw [parts.num_div_den hdecimal] at once
    exact once
  have written : IsWordOf ⟨.floating p, d⟩ word := ⟨rfl, formed⟩
  have held : CanBeHeld ⟨.floating p, d⟩ ↔ |x| < p.bound := by
    rw [← fits_iff_canBeHeld (l := ⟨.floating p, d⟩) formed,
      fits_of_ok (l := ⟨.floating p, d⟩) read]
    exact rounds.isFinite_iff
  refine ⟨⟨_, read, fun y => ?_, rounds.isInfinite_iff⟩, ?_, ?_⟩
  · constructor
    · intro rounds'
      exact rounds'.unique rounds
    · rintro rfl
      exact rounds
  · rw [(reading word).outOfRange_iff, held, not_lt]
    exact and_iff_right written
  · rw [(reading word).ok_iff, held]
    exact and_iff_right written

/-- The bound of a `float` is out of range, and a little less is not. A number that lies a little
above the middle of one and the next `float` is rounded to the latter, although the nearest `double`
would be rounded to one. -/
theorem read_decimal_rounds_once_at_bound :
    let bound := "-340282356779733661637539395458142568448"
    let less := "-340282356779733661637539395458142568447.999"
    let middle := "1.000000059604644775390625000000001"
    let next : Binary .single := .finite false ⟨1065353217, by decide⟩
    let nearby : Binary .double := .finite false ⟨4607182419068452864, by decide⟩
    parse ("float(" ++ bound ++ ")") = .error (.literalOutOfRange .float bound) ∧
    parse ("float(" ++ less ++ ")") = .ok ⟨.float, less⟩ ∧
    Operand.read .float middle = .ok ⟨.float, next⟩ ∧
      Precision.single.RoundsTo false (rational middle.toList) next ∧
    Operand.read .double middle = .ok ⟨.double, nearby⟩ ∧
    ¬ Precision.single.RoundsTo false (rational middle.toList) (nearby.convert .single) := by
  intro bound less middle next nearby
  have atBound : Precision.single.bound ≤ |rational bound.toList| := by decide +kernel
  have belowBound : |rational less.toList| < Precision.single.bound := by decide +kernel
  have single : Operand.read .float middle = .ok ⟨.float, next⟩ := by decide +kernel
  have double : Operand.read .double middle = .ok ⟨.double, nearby⟩ := by decide +kernel
  have differ : nearby.convert .single ≠ next := by decide +kernel
  obtain ⟨-, refused, -⟩ :=
    read_decimal_rounds_once .single bound (isWritten_iff.mp (by decide +kernel))
  obtain ⟨-, -, accepted⟩ :=
    read_decimal_rounds_once .single less (isWritten_iff.mp (by decide +kernel))
  obtain ⟨⟨z, read, rounds_iff, -⟩, -⟩ :=
    read_decimal_rounds_once .single middle (isWritten_iff.mp (by decide +kernel))
  obtain rfl : next = z := by
    cases single.symm.trans read
    rfl
  have positive : isNegative middle.toList = false := by decide +kernel
  rw [positive] at rounds_iff
  exact ⟨refused.mpr atBound, accepted.mpr belowBound, single, (rounds_iff next).mpr rfl, double,
    fun twice => differ ((rounds_iff _).mp twice)⟩

end Literal

end TypedStack
