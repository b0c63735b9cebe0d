import Mathlib.Data.Rat.Floor
import TypedStack.Proofs.Faults

/-!
# Remainders

The remainder of two finite numbers is exact. Divisor and dividend are few significant bits times
powers of two, and so is what remains, whichever of the two powers is the greater one; hence a
remainder is itself a number of the format, and rounding does not change it.
-/

namespace TypedStack

/-! ## Exact remainders -/

/-- With the dividend and the divisor, the remainder has few significant bits. -/
lemma SignificantBits.mod {bits n m : Nat} (hn : SignificantBits bits n)
    (hm : SignificantBits bits m) (pos : 0 < m) :
    SignificantBits bits (n % m) := by
  obtain ⟨k, e, small, rfl⟩ := hn
  obtain ⟨l, d, small', rfl⟩ := hm
  have power (a i j : Nat) : a * 2 ^ (i + j) = a * 2 ^ j * 2 ^ i := by
    rw [Nat.pow_add, Nat.mul_comm (2 ^ i), Nat.mul_assoc]
  rcases Nat.le_total d e with le | le
  · -- the remainder is a multiple of the power of the divisor
    obtain ⟨i, rfl⟩ := Nat.exists_eq_add_of_le le
    refine ⟨k * 2 ^ i % l, d, ?_, ?_⟩
    · exact (Nat.mod_lt _ (Nat.pos_of_mul_pos_right pos)).trans small'
    · rw [power, Nat.mul_mod_mul_right]
  · -- it is a multiple of the power of the dividend, and not greater than the dividend
    obtain ⟨i, rfl⟩ := Nat.exists_eq_add_of_le le
    refine ⟨k % (l * 2 ^ i), e, ?_, ?_⟩
    · exact (Nat.mod_le _ _).trans_lt small
    · rw [power, Nat.mul_mod_mul_right]

namespace Binary

variable {f : Format} {s t : Bool} {a b : Fin f.finiteCodes}

/-- The remainder of two finite numbers is not rounded. -/
lemma quantity_mod (ne : b.val ≠ 0) :
    ((finite s a).mod (finite t b)).quantity =
      .finite s (withSign s ((f.units a % f.units b : Nat) / f.one)) := by
  have pos := f.units_pos ne
  have few := (f.significantBits_units a).mod (f.significantBits_units b) pos
  have small : f.units a % f.units b < f.units f.finiteCodes :=
    (Nat.mod_lt _ pos).trans (f.units_strictMono b.isLt)
  have unrounded := quantity_round_of_significantBits (s := s) Nat.one_pos few small
  rw [Nat.mul_one] at unrounded
  rw [mod, if_neg ne]
  exact unrounded

end Binary

/-! ## Truncated quotients -/

/-- The integer next to a number on the side of zero. -/
def truncate (x : ℚ) : ℤ := if x < 0 then ⌈x⌉ else ⌊x⌋

/-- A number is truncated by its magnitude. -/
lemma truncate_withSign (s : Bool) {x : ℚ} (nonneg : 0 ≤ x) :
    (truncate (withSign s x) : ℚ) = withSign s ⌊x⌋ := by
  cases s with
  | false =>
    show ((truncate x : ℤ) : ℚ) = ⌊x⌋
    rw [truncate, if_neg (not_lt.mpr nonneg)]
  | true =>
    show ((truncate (-x) : ℤ) : ℚ) = -⌊x⌋
    rcases nonneg.eq_or_lt with rfl | pos
    · rw [truncate, neg_zero, if_neg (lt_irrefl 0), Int.floor_zero, Int.cast_zero, neg_zero]
    · rw [truncate, if_pos (neg_lt_zero.mpr pos), Int.ceil_neg, Int.cast_neg]

namespace Format

variable {f : Format} {a b : Nat}

/-- What the truncated quotient leaves of the dividend is the remainder in units. -/
lemma eq_truncate_mul_add (s t : Bool) :
    let x := withSign s (f.magnitude a)
    let y := withSign t (f.magnitude b)
    x = truncate (x / y) * y + withSign s ((f.units a % f.units b : Nat) / f.one) := by
  intro x y
  have quotient : x / y = withSign (s ^^ t) (f.units a / f.units b) := by
    rw [withSign_div, magnitude, magnitude, div_div_div_cancel_right₀ f.one_pos.ne']
  have truncated : (truncate (x / y) : ℚ) = withSign (s ^^ t) (f.units a / f.units b : Nat) := by
    rw [quotient, truncate_withSign _ (by positivity), Rat.floor_natCast_div_natCast]
    norm_cast
  have units : (f.units a : ℚ) =
      (f.units a / f.units b : Nat) * f.units b + (f.units a % f.units b : Nat) := by
    exact_mod_cast (Nat.div_add_mod' (f.units a) (f.units b)).symm
  rw [truncated, withSign_mul, Bool.xor_assoc, Bool.xor_self, Bool.xor_false, withSign_add]
  refine congrArg (withSign s) ?_
  rw [magnitude, magnitude, ← mul_div_assoc, ← add_div, ← units]

/-- The remainder is smaller than the divisor. -/
lemma abs_remainder_lt (s t : Bool) (pos : 0 < f.units b) :
    |withSign s ((f.units a % f.units b : Nat) / f.one)| < |withSign t (f.magnitude b)| := by
  have less : ((f.units a % f.units b : Nat) : ℚ) < f.units b := by exact_mod_cast Nat.mod_lt _ pos
  rw [abs_withSign, abs_withSign, abs_of_nonneg (f.magnitude_nonneg b),
    abs_of_nonneg (by positivity), magnitude]
  exact div_lt_div_of_pos_right less f.one_pos

end Format

/-! ## Remainders of operands -/

namespace Binary

variable {f : Format} {x y : Binary f} {s t : Bool} {u v : ℚ}

/-- The remainder of finite numbers is the exact one of a truncated division, with the sign of the
dividend. -/
lemma exists_mod_of_finite (hx : x.quantity = .finite s u) (hy : y.quantity = .finite t v)
    (ne : v ≠ 0) :
    ∃ w, (x.mod y).quantity = .finite s w ∧ u = truncate (u / v) * v + w ∧ |w| < |v| := by
  obtain ⟨a, rfl, rfl⟩ := exists_code_of_quantity hx
  obtain ⟨b, rfl, rfl⟩ := exists_code_of_quantity hy
  have nonzero : b.val ≠ 0 := by
    rw [Ne, withSign_eq_zero_iff, f.magnitude_eq_zero_iff] at ne
    exact ne
  exact ⟨_, quantity_mod nonzero, f.eq_truncate_mul_add s t,
    f.abs_remainder_lt s t (f.units_pos nonzero)⟩

/-- An infinite number is not zero. -/
lemma isZero_of_isInfinite (infinite : y.isInfinite = true) : y.isZero = false := by
  cases y with
  | nan => cases infinite
  | infinite _ => rfl
  | finite _ _ => cases infinite

/-- A finite number is its own remainder by infinity. -/
lemma mod_of_isInfinite (finite : x.isFinite = true) (infinite : y.isInfinite = true) :
    x.mod y = x := by
  cases x with
  | nan => cases finite
  | infinite _ => cases finite
  | finite _ _ =>
    cases y with
    | nan => cases infinite
    | infinite _ => rfl
    | finite _ _ => cases infinite

/-- Infinity has no remainder, and neither has what is not a number. -/
lemma mod_eq_nan (invalid : x.isInfinite = true ∨ x = nan ∨ y = nan) : x.mod y = nan := by
  rcases invalid with infinite | rfl | rfl
  · cases x with
    | nan => cases infinite
    | infinite _ => cases y <;> rfl
    | finite _ _ => cases infinite
  · rfl
  · cases x <;> rfl

end Binary

namespace Operand

/-- A divisor that is not zero always leaves a remainder. -/
lemma apply_mod {p : Precision} (a b : Value (.floating p)) (divisor : Binary.isZero b = false) :
    apply .mod ⟨.floating p, a⟩ ⟨.floating p, b⟩ = .ok ⟨.floating p, Binary.mod a b⟩ := by
  have ok : @Value.apply .mod (.floating p) a b = .ok (Binary.mod a b) :=
    if_neg (Bool.eq_false_iff.mp divisor)
  rw [apply_of_same_kind, ok]

/-- The remainder of two finite numbers is what the truncated quotient leaves of the dividend,
exactly, however far apart the two are. It is less than the divisor, and it has the sign of the
dividend even if it is zero. A finite number is its own remainder by an infinity. An infinity has
none, and not-a-number neither has nor leaves one. -/
theorem apply_mod_exact (l r : Operand) (p : Precision)
    (promoted : l.kind.promote r.kind = .floating p) :
    let a : Binary p.format :=
      l.value.widen (promoted ▸ l.kind.le_promote_left r.kind : l.kind ≤ .floating p)
    let b : Binary p.format :=
      r.value.widen (promoted ▸ l.kind.le_promote_right r.kind : r.kind ≤ .floating p)
    let result := apply .mod l r
    (∀ s x t y, a.quantity = .finite s x → b.quantity = .finite t y → y ≠ 0 →
      ∃ (c : Binary p.format) (z : ℚ), result = .ok ⟨.floating p, c⟩ ∧ c.quantity = .finite s z ∧
        x = truncate (x / y) * y + z ∧ |z| < |y|) ∧
    (a.isFinite = true → b.isInfinite = true → result = .ok ⟨.floating p, a⟩) ∧
    (b.isZero = false → a.isInfinite = true ∨ a = .nan ∨ b = .nan →
      result = .ok ⟨.floating p, Binary.nan⟩) := by
  intro a b result
  have converted : result = apply .mod ⟨.floating p, a⟩ ⟨.floating p, b⟩ :=
    apply_widen promoted .mod
  rw [converted]
  refine ⟨?_, ?_, ?_⟩
  · intro s x t y ha hb ne
    have divisor : b.isZero = false := by
      refine Bool.eq_false_of_not_eq_true fun zero => ne ?_
      have zero := (Binary.isZero_iff b).mp zero
      rw [hb] at zero
      exact zero
    obtain ⟨z, remains⟩ := Binary.exists_mod_of_finite ha hb ne
    exact ⟨a.mod b, z, apply_mod a b divisor, remains⟩
  · intro finite infinite
    rw [apply_mod a b (Binary.isZero_of_isInfinite infinite),
      Binary.mod_of_isInfinite finite infinite]
  · intro divisor invalid
    rw [apply_mod a b divisor, Binary.mod_eq_nan invalid]

/-- The greatest `double` modulo three times the least positive `float`, a multiple of the divisor,
whose remainder is the negative zero, and an infinity on either side. -/
theorem apply_mod_exact_at_greatest :
    let greatest : Value .double := Binary.finite true ⟨9218868437227405311, by decide⟩
    let least : Value .float := Binary.finite false ⟨3, by decide⟩
    let three : Value .float := Binary.finite false ⟨1077936128, by decide⟩
    let infinity : Value .double := Binary.infinite false
    (∃ c : Binary .double, apply .mod ⟨.double, greatest⟩ ⟨.float, least⟩ = .ok ⟨.double, c⟩ ∧
      c.quantity = .finite true (-1 / 2 ^ 149)) ∧
    (∃ c : Binary .single, apply .mod ⟨.int8, -6#8⟩ ⟨.float, three⟩ = .ok ⟨.float, c⟩ ∧
      c.quantity = .finite true 0) ∧
    apply .mod ⟨.int8, -6#8⟩ ⟨.double, infinity⟩ = .ok ⟨.double, Binary.ofInt .double (-6)⟩ ∧
    apply .mod ⟨.double, infinity⟩ ⟨.int8, -6#8⟩ = .ok ⟨.double, Binary.nan⟩ := by
  intro greatest least three infinity
  obtain ⟨remains, -⟩ := apply_mod_exact ⟨.double, greatest⟩ ⟨.float, least⟩ .double rfl
  obtain ⟨remains', -⟩ := apply_mod_exact ⟨.int8, -6#8⟩ ⟨.float, three⟩ .single rfl
  obtain ⟨-, kept, -⟩ := apply_mod_exact ⟨.int8, -6#8⟩ ⟨.double, infinity⟩ .double rfl
  obtain ⟨-, -, invalid⟩ := apply_mod_exact ⟨.double, infinity⟩ ⟨.int8, -6#8⟩ .double rfl
  have dividend : ∀ h : Kind.double ≤ .double, Binary.quantity (greatest.widen h) =
      .finite true (-(Format.double.magnitude 9218868437227405311)) :=
    fun h => Value.quantity_widen h greatest (by decide)
  have divisor : ∀ h : Kind.float ≤ .double, Binary.quantity (least.widen h) =
      .finite false (Format.single.magnitude 3) :=
    fun h => Value.quantity_widen h least (by decide)
  have dividend' : ∀ h : Kind.int8 ≤ .float, Binary.quantity (Value.widen h (-6#8 : Value .int8)) =
      .finite true (-6#8).toInt :=
    fun h => Value.quantity_widen h (-6#8 : Value .int8) (by decide)
  have divisor' : ∀ h : Kind.float ≤ .float, Binary.quantity (three.widen h) =
      .finite false (Format.single.magnitude 1077936128) :=
    fun h => Value.quantity_widen h three (by decide)
  obtain ⟨c, z, ok, quantity, remainder, -⟩ :=
    remains _ _ _ _ (dividend _) (divisor _) (by decide +kernel)
  obtain ⟨c', z', ok', quantity', remainder', -⟩ :=
    remains' _ _ _ _ (dividend' _) (divisor' _) (by decide +kernel)
  have value : z = -1 / 2 ^ 149 := by
    rw [eq_sub_of_add_eq' remainder.symm]
    decide +kernel
  have value' : z' = 0 := by
    rw [eq_sub_of_add_eq' remainder'.symm]
    decide +kernel
  have six : (-6#8).toInt = -6 := by decide
  have kept : apply .mod ⟨.int8, -6#8⟩ ⟨.double, infinity⟩ =
      .ok ⟨.double, Binary.ofInt .double (-6#8).toInt⟩ :=
    kept (by decide +kernel) rfl
  rw [six] at kept
  exact ⟨⟨c, ok, value ▸ quantity⟩, ⟨c', ok', value' ▸ quantity'⟩, kept,
    invalid (by decide +kernel) (.inl rfl)⟩

end Operand

end TypedStack
