import Mathlib.Tactic.Lemma
import TypedStack.Operand

/-!
# Integer arithmetic

An operation on integers computes the exact result and fails if the wider of the two kinds cannot
hold it. `Word.fit` puts an exact number into a word or tells on which side of the range it lies,
and each operation on words is `Word.fit` of the exact result, although it chooses the side by the
signs of its operands.
-/

namespace TypedStack

namespace Width

/-- The least number of a width. -/
def least : Width → Int
  | w8 => -128
  | w16 => -32768
  | w32 => -2147483648

/-- The greatest number of a width. -/
def greatest : Width → Int
  | w8 => 127
  | w16 => 32767
  | w32 => 2147483647

/-- The wider of two widths. -/
def wider (v w : Width) : Width := if v.bits ≤ w.bits then w else v

/-- No width is empty. -/
lemma bits_pos (w : Width) : 0 < w.bits := by cases w <;> decide

/-- The least word of a width is the least number. -/
lemma toInt_intMin (w : Width) : (BitVec.intMin w.bits).toInt = w.least := by cases w <;> decide

/-- The greatest word of a width is the greatest number. -/
lemma toInt_intMax (w : Width) : (BitVec.intMax w.bits).toInt = w.greatest := by cases w <;> decide

/-- There is more than one number in a width. -/
lemma least_lt_greatest (w : Width) : w.least < w.greatest := by cases w <;> decide

/-- Zero is in every width. -/
lemma zero_within (w : Width) : w.least ≤ 0 ∧ 0 ≤ w.greatest := by cases w <;> decide

/-- There is one more negative number than there are positive ones. -/
lemma greatest_lt_neg_least (w : Width) : w.greatest < -w.least := by cases w <;> decide

/-- The wider width is at least as wide as the first. -/
lemma bits_le_wider_left (v w : Width) : v.bits ≤ (v.wider w).bits := by
  cases v <;> cases w <;> decide

/-- The wider width is at least as wide as the second. -/
lemma bits_le_wider_right (v w : Width) : w.bits ≤ (v.wider w).bits := by
  cases v <;> cases w <;> decide

end Width

/-- Of two integer kinds the one of the wider width is the wider. -/
lemma Kind.promote_integer (v w : Width) :
    (integer v).promote (integer w) = integer (v.wider w) := by
  cases v <;> cases w <;> decide

namespace BinaryOp

/-- The result of an operation on integers of any size. Quotients are truncated toward zero, and a
remainder has the sign of the dividend. -/
def exact : BinaryOp → Int → Int → Int
  | add, x, y => x + y
  | sub, x, y => x - y
  | mul, x, y => x * y
  | div, x, y => x.tdiv y
  | mod, x, y => x.tmod y

/-- The operation divides, and its right operand `y` is zero. -/
def LacksDivisor (op : BinaryOp) (y : Int) : Prop := (op = div ∨ op = mod) ∧ y = 0

instance (op : BinaryOp) (y : Int) : Decidable (op.LacksDivisor y) :=
  inferInstanceAs (Decidable ((op = div ∨ op = mod) ∧ y = 0))

/-- The side on which a result leaves the range, by whether the left and the right operand are
positive. -/
def side : BinaryOp → Bool → Bool → Fault
  | add, _, right => if right then .overflow else .underflow
  | sub, _, right => if right then .underflow else .overflow
  | mul, left, right => if left == right then .overflow else .underflow
  | div, _, _ | mod, _, _ => .overflow

end BinaryOp

/-! ## Words -/

namespace Word

variable {n : Nat}

/-- The word with a given value, or the side of the range on which the value lies. -/
def fit (n : Nat) (x : Int) : Except Fault (BitVec n) :=
  if (BitVec.intMax n).toInt < x then .error .overflow
  else if x < (BitVec.intMin n).toInt then .error .underflow
  else .ok (BitVec.ofInt n x)

/-- What is greater than all words overflows. -/
lemma fit_of_greater {x : Int} (greater : (BitVec.intMax n).toInt < x) :
    fit n x = .error .overflow := if_pos greater

/-- Words are on both sides of zero. -/
lemma intMin_le_intMax (pos : 0 < n) :
    (BitVec.intMin n).toInt < 0 ∧ 0 ≤ (BitVec.intMax n).toInt := by
  rw [BitVec.toInt_intMin_of_pos pos, BitVec.toInt_intMax]
  have := Int.pow_pos (n := 2) (m := n - 1) (by decide)
  omega

/-- What is less than all words underflows. -/
lemma fit_of_less (pos : 0 < n) {x : Int} (less : x < (BitVec.intMin n).toInt) :
    fit n x = .error .underflow := by
  have := intMin_le_intMax pos
  rw [fit, if_neg (by omega), if_pos less]

/-- Every word is between the least and the greatest. -/
lemma toInt_bounds (pos : 0 < n) (a : BitVec n) :
    (BitVec.intMin n).toInt ≤ a.toInt ∧ a.toInt ≤ (BitVec.intMax n).toInt := by
  have low := a.le_toInt
  have high := a.toInt_lt
  rw [BitVec.toInt_intMin_of_pos pos, BitVec.toInt_intMax]
  omega

/-- The value of a word fits, and gives back the word. -/
lemma fit_toInt (pos : 0 < n) (a : BitVec n) : fit n a.toInt = .ok a := by
  obtain ⟨low, high⟩ := toInt_bounds pos a
  rw [fit, if_neg (Int.not_lt.mpr high), if_neg (Int.not_lt.mpr low), BitVec.ofInt_toInt]

/-- A number between them has a word. -/
lemma toInt_ofInt (pos : 0 < n) {x : Int} (low : (BitVec.intMin n).toInt ≤ x)
    (high : x ≤ (BitVec.intMax n).toInt) :
    (BitVec.ofInt n x).toInt = x := by
  rw [BitVec.toInt_intMin_of_pos pos] at low
  rw [BitVec.toInt_intMax] at high
  exact BitVec.toInt_ofInt_eq_self pos (by omega) (by omega)

/-- A number that fits is the value of its word. -/
lemma toInt_of_fit (pos : 0 < n) {x : Int} {c : BitVec n} (fits : fit n x = .ok c) :
    (BitVec.intMin n).toInt ≤ x ∧ x ≤ (BitVec.intMax n).toInt ∧ c.toInt = x := by
  rw [fit] at fits
  split at fits
  · cases fits
  · next notGreater =>
    split at fits
    · cases fits
    · next notLess =>
      cases fits
      have low := Int.not_lt.mp notLess
      have high := Int.not_lt.mp notGreater
      exact ⟨low, high, toInt_ofInt pos low high⟩

/-- A fault says on which side a number is outside. -/
lemma outside_of_fit {x : Int} {fault : Fault} (failed : fit n x = .error fault) :
    (fault = .overflow ∧ (BitVec.intMax n).toInt < x) ∨
      (fault = .underflow ∧ x < (BitVec.intMin n).toInt) := by
  rw [fit] at failed
  split at failed
  · next greater =>
    cases failed
    exact .inl ⟨rfl, greater⟩
  · split at failed
    · next less =>
      cases failed
      exact .inr ⟨rfl, less⟩
    · cases failed

/-- The library's flags for results that leave the range, in terms of the range. -/
lemma outside_of_pow (pos : 0 < n) {x : Int} (h : Int.pow 2 (n - 1) ≤ x ∨ x < -Int.pow 2 (n - 1)) :
    (BitVec.intMax n).toInt < x ∨ x < (BitVec.intMin n).toInt := by
  have low : (BitVec.intMin n).toInt = -Int.pow 2 (n - 1) := BitVec.toInt_intMin_of_pos pos
  have high : (BitVec.intMax n).toInt = Int.pow 2 (n - 1) - 1 := BitVec.toInt_intMax
  omega

/-- The sum leaves the range upwards if `b` is positive, and downwards if not. -/
lemma add_eq_fit (pos : 0 < n) (a b : BitVec n) : add a b = fit n (a.toInt + b.toInt) := by
  by_cases leaves : a.saddOverflow b = true
  · have ha := toInt_bounds pos a
    rw [add, if_pos leaves]
    simp only [BitVec.saddOverflow, Bool.or_eq_true, decide_eq_true_eq] at leaves
    rcases outside_of_pow pos leaves with greater | less
    · have positive : isPositive b = true := decide_eq_true (by omega)
      rw [fit_of_greater greater, positive, if_pos rfl]
    · have negative : isPositive b = false := decide_eq_false (by omega)
      rw [fit_of_less pos less, negative, if_neg Bool.false_ne_true]
  · rw [add, if_neg leaves, ← BitVec.toInt_add_of_not_saddOverflow leaves, fit_toInt pos]

/-- The difference leaves the range downwards if `b` is positive, and upwards if not. -/
lemma sub_eq_fit (pos : 0 < n) (a b : BitVec n) : sub a b = fit n (a.toInt - b.toInt) := by
  by_cases leaves : a.ssubOverflow b = true
  · have ha := toInt_bounds pos a
    rw [sub, if_pos leaves]
    simp only [BitVec.ssubOverflow, Bool.or_eq_true, decide_eq_true_eq] at leaves
    rcases outside_of_pow pos leaves with greater | less
    · have negative : isPositive b = false := decide_eq_false (by omega)
      rw [fit_of_greater greater, negative, if_neg Bool.false_ne_true]
    · have positive : isPositive b = true := decide_eq_true (by omega)
      rw [fit_of_less pos less, positive, if_pos rfl]
  · rw [sub, if_neg leaves, ← BitVec.toInt_sub_of_not_ssubOverflow leaves, fit_toInt pos]

/-- Factors that are both positive, or both not, have no product below zero, and other factors none
above. -/
lemma sign_mul (a b : BitVec n) :
    if isPositive a == isPositive b then 0 ≤ a.toInt * b.toInt else a.toInt * b.toInt ≤ 0 := by
  by_cases ha : 0 < a.toInt <;> by_cases hb : 0 < b.toInt
  · simpa [isPositive, ha, hb] using Int.mul_nonneg (Int.le_of_lt ha) (Int.le_of_lt hb)
  · simpa [isPositive, ha, hb] using Int.mul_nonpos_of_nonneg_of_nonpos (Int.le_of_lt ha)
      (Int.not_lt.mp hb)
  · simpa [isPositive, ha, hb] using Int.mul_nonpos_of_nonpos_of_nonneg (Int.not_lt.mp ha)
      (Int.le_of_lt hb)
  · simpa [isPositive, ha, hb] using Int.mul_nonneg_of_nonpos_of_nonpos (Int.not_lt.mp ha)
      (Int.not_lt.mp hb)

/-- The product leaves the range in the direction that the signs of the factors give it. -/
lemma mul_eq_fit (pos : 0 < n) (a b : BitVec n) : mul a b = fit n (a.toInt * b.toInt) := by
  by_cases leaves : a.smulOverflow b = true
  · have range := intMin_le_intMax pos
    have sign := sign_mul a b
    rw [mul, if_pos leaves]
    simp only [BitVec.smulOverflow, Bool.or_eq_true, decide_eq_true_eq] at leaves
    have outside := outside_of_pow pos leaves
    by_cases same : (isPositive a == isPositive b) = true
    · rw [if_pos same] at sign ⊢
      rw [fit_of_greater (by omega)]
    · rw [if_neg same] at sign ⊢
      rw [fit_of_less pos (by omega)]
  · rw [mul, if_neg leaves, ← BitVec.toInt_mul_of_not_smulOverflow leaves, fit_toInt pos]

/-- The least number divided by minus one is one more than the greatest, and all other quotients are
in the range. -/
lemma div_eq_fit (pos : 0 < n) (a : BitVec n) {b : BitVec n} (ne : b ≠ 0) :
    div a b = fit n (a.toInt.tdiv b.toInt) := by
  rw [div, if_neg ne]
  by_cases leaves : a.sdivOverflow b = true
  · rw [if_pos leaves]
    simp only [BitVec.sdivOverflow_eq, Bool.and_eq_true, decide_eq_true_eq] at leaves
    obtain ⟨⟨-, rfl⟩, rfl⟩ := leaves
    have divisor : (BitVec.allOnes n).toInt = -1 := by rw [BitVec.toInt_allOnes, if_pos pos]
    refine (fit_of_greater ?_).symm
    rw [divisor, Int.tdiv_neg, Int.tdiv_one, BitVec.toInt_intMin_of_pos pos, BitVec.toInt_intMax]
    omega
  · -- all quotients but this one are exact in the library
    have within : a ≠ BitVec.intMin n ∨ b ≠ -1#n := by
      refine Decidable.not_and_iff_or_not.mp ?_
      rintro ⟨rfl, rfl⟩
      refine leaves ?_
      rw [BitVec.sdivOverflow_eq, BitVec.neg_one_eq_allOnes]
      simp [pos]
    rw [if_neg leaves, ← BitVec.toInt_sdiv_of_ne_or_ne a b within, fit_toInt pos]

/-- The remainder is the exact one, which always fits. -/
lemma mod_eq_fit (pos : 0 < n) (a : BitVec n) {b : BitVec n} (ne : b ≠ 0) :
    mod a b = fit n (a.toInt.tmod b.toInt) := by
  rw [mod, if_neg ne, ← BitVec.toInt_srem, fit_toInt pos]

/-- Apart from divisions by zero, every operation is the exact one, made to fit. -/
theorem apply_eq_fit (pos : 0 < n) (op : BinaryOp) (a b : BitVec n) :
    apply op a b =
      if op.LacksDivisor b.toInt then .error .divisionByZero
        else fit n (op.exact a.toInt b.toInt) := by
  have zero : b.toInt = 0 ↔ b = 0 := by
    have inj := BitVec.toInt_inj (x := b) (y := 0#n)
    rw [BitVec.toInt_zero] at inj
    exact inj
  cases op with
  | add => exact (add_eq_fit pos a b).trans (if_neg (by simp [BinaryOp.LacksDivisor])).symm
  | sub => exact (sub_eq_fit pos a b).trans (if_neg (by simp [BinaryOp.LacksDivisor])).symm
  | mul => exact (mul_eq_fit pos a b).trans (if_neg (by simp [BinaryOp.LacksDivisor])).symm
  | div =>
    by_cases hb : b = 0
    · rw [if_pos ⟨.inl rfl, zero.mpr hb⟩]
      exact if_pos hb
    · rw [if_neg fun h => hb (zero.mp h.2)]
      exact div_eq_fit pos a hb
  | mod =>
    by_cases hb : b = 0
    · rw [if_pos ⟨.inr rfl, zero.mpr hb⟩]
      exact if_pos hb
    · rw [if_neg fun h => hb (zero.mp h.2)]
      exact mod_eq_fit pos a hb

/-- A test that fails has its own fault. -/
lemma fault_of_ite {p : Prop} [Decidable p] {fault fault' : Fault} {a : BitVec n}
    (failed : (if p then .error fault' else .ok a : Except Fault (BitVec n)) = .error fault) :
    fault = fault' := by
  split at failed
  · cases failed
    rfl
  · cases failed

/-- The signs of the operands tell the side on which a result leaves the range. -/
lemma side_of_fault {op : BinaryOp} {a b : BitVec n} {fault : Fault}
    (failed : apply op a b = .error fault) :
    fault = .divisionByZero ∨ fault = op.side (isPositive a) (isPositive b) := by
  cases op with
  | add => exact .inr (fault_of_ite failed)
  | sub => exact .inr (fault_of_ite failed)
  | mul => exact .inr (fault_of_ite failed)
  | div =>
    simp only [apply, div] at failed
    split at failed
    · cases failed
      exact .inl rfl
    · exact .inr (fault_of_ite failed)
  | mod => exact .inl (fault_of_ite failed)

end Word

/-! ## Operands -/

namespace Operand

/-- Arithmetic in a kind that is known to be the wider one. -/
lemma apply_of_promote {x y : Operand} {k : Kind} (hk : x.kind.promote y.kind = k) (op : BinaryOp) :
    x.apply op y =
      let a : Value k := x.value.widen (hk ▸ x.kind.le_promote_left y.kind)
      let b : Value k := y.value.widen (hk ▸ x.kind.le_promote_right y.kind)
      match a.apply op b with
      | .ok value => .ok ⟨k, value⟩
      | .error fault => .error (fault.error op k) := by
  subst hk
  rfl

variable {v w : Width} {op : BinaryOp} {a : BitVec v.bits} {b : BitVec w.bits}

/-- Integers are combined in the wider width. -/
lemma apply_integer_of_ok {c : BitVec (v.wider w).bits}
    (ok : Word.apply op (a.signExtend _) (b.signExtend _) = .ok c) :
    apply op ⟨.integer v, a⟩ ⟨.integer w, b⟩ = .ok ⟨.integer (v.wider w), c⟩ := by
  have ok : @Value.apply op (.integer (v.wider w)) (a.signExtend _) (b.signExtend _) = .ok c := ok
  rw [apply_of_promote (Kind.promote_integer v w)]
  dsimp only [Value.widen]
  rw [ok]

/-- A fault of words is an error in the wider width. -/
lemma apply_integer_of_error {fault : Fault}
    (failed : Word.apply op (a.signExtend (v.wider w).bits) (b.signExtend _) = .error fault) :
    apply op ⟨.integer v, a⟩ ⟨.integer w, b⟩ = .error (fault.error op (.integer (v.wider w))) := by
  have failed : @Value.apply op (.integer (v.wider w)) (a.signExtend _) (b.signExtend _) =
      .error fault := failed
  rw [apply_of_promote (Kind.promote_integer v w)]
  dsimp only [Value.widen]
  rw [failed]

/-- Everything that can become of an operation on the numbers `x` and `y` in width `k`. -/
inductive Combined (op : BinaryOp) (k : Width) (x y : Int) : Except Error Operand → Prop where
  | lacksDivisor : op.LacksDivisor y → Combined op k x y (.error (.divisionByZero op))
  | greater : ¬ op.LacksDivisor y → k.greatest < op.exact x y →
    Combined op k x y (.error (.overflow op (.integer k)))
  | less : ¬ op.LacksDivisor y → op.exact x y < k.least →
    Combined op k x y (.error (.underflow op (.integer k)))
  | within {c : BitVec k.bits} :
    ¬ op.LacksDivisor y → k.least ≤ op.exact x y → op.exact x y ≤ k.greatest →
      c.toInt = op.exact x y →
    Combined op k x y (.ok ⟨.integer k, c⟩)

/-- Every operation on integers ends in one of these ways. -/
lemma combined (op : BinaryOp) (a : BitVec v.bits) (b : BitVec w.bits) :
    Combined op (v.wider w) a.toInt b.toInt (apply op ⟨.integer v, a⟩ ⟨.integer w, b⟩) := by
  have pos := (v.wider w).bits_pos
  have result := Word.apply_eq_fit pos op (a.signExtend _) (b.signExtend _)
  rw [BitVec.toInt_signExtend_of_le (v.bits_le_wider_left w),
    BitVec.toInt_signExtend_of_le (v.bits_le_wider_right w)] at result
  by_cases lacks : op.LacksDivisor b.toInt
  · rw [if_pos lacks] at result
    rw [apply_integer_of_error result]
    exact .lacksDivisor lacks
  · rw [if_neg lacks] at result
    -- the exact result is within the wider width, or on one side of it
    cases fits : Word.fit (v.wider w).bits (op.exact a.toInt b.toInt) with
    | ok c =>
      obtain ⟨low, high, value⟩ := Word.toInt_of_fit pos fits
      rw [Width.toInt_intMin] at low
      rw [Width.toInt_intMax] at high
      rw [apply_integer_of_ok (result.trans fits)]
      exact .within lacks low high value
    | error fault =>
      rw [apply_integer_of_error (result.trans fits)]
      rcases Word.outside_of_fit fits with ⟨rfl, greater⟩ | ⟨rfl, less⟩
      · rw [Width.toInt_intMax] at greater
        exact .greater lacks greater
      · rw [Width.toInt_intMin] at less
        exact .less lacks less

namespace Combined

variable {k : Width} {x y : Int} {result : Except Error Operand}

/-- A division by zero is reported where the divisor is missing, and only there. -/
lemma divisionByZero_iff (ends : Combined op k x y result) :
    result = .error (.divisionByZero op) ↔ op.LacksDivisor y := by
  cases ends with
  | lacksDivisor lacks => exact iff_of_true rfl lacks
  | greater divides | less divides | within divides => exact iff_of_false nofun divides

/-- There is a result where the exact one is within the width, and only there. -/
lemma ok_iff (ends : Combined op k x y result) :
    (∃ c : BitVec k.bits, c.toInt = op.exact x y ∧ result = .ok ⟨.integer k, c⟩) ↔
      ¬ op.LacksDivisor y ∧ k.least ≤ op.exact x y ∧ op.exact x y ≤ k.greatest := by
  cases ends with
  | lacksDivisor lacks => exact iff_of_false nofun fun h => h.1 lacks
  | greater _ greater => exact iff_of_false nofun fun h => Int.not_le.mpr greater h.2.2
  | less _ less => exact iff_of_false nofun fun h => Int.not_le.mpr less h.2.1
  | within divides low high value => exact iff_of_true ⟨_, value, rfl⟩ ⟨divides, low, high⟩

/-- An overflow is reported where the exact result is greater, and only there. -/
lemma overflow_iff (ends : Combined op k x y result) :
    result = .error (.overflow op (.integer k)) ↔
      ¬ op.LacksDivisor y ∧ k.greatest < op.exact x y := by
  have range := k.least_lt_greatest
  cases ends with
  | lacksDivisor lacks => exact iff_of_false nofun fun h => h.1 lacks
  | greater divides greater => exact iff_of_true rfl ⟨divides, greater⟩
  | less _ less => exact iff_of_false nofun (by omega)
  | within _ _ high _ => exact iff_of_false nofun fun h => Int.not_le.mpr h.2 high

/-- An underflow is reported where the exact result is less, and only there. -/
lemma underflow_iff (ends : Combined op k x y result) :
    result = .error (.underflow op (.integer k)) ↔
      ¬ op.LacksDivisor y ∧ op.exact x y < k.least := by
  have range := k.least_lt_greatest
  cases ends with
  | lacksDivisor lacks => exact iff_of_false nofun fun h => h.1 lacks
  | greater _ greater => exact iff_of_false nofun (by omega)
  | less divides less => exact iff_of_true rfl ⟨divides, less⟩
  | within _ low _ _ => exact iff_of_false nofun fun h => Int.not_le.mpr h.2 low

/-- The quotient of the least number by minus one is the only one outside the range. -/
lemma div_least (ends : Combined .div k k.least (-1) result) :
    result = .error (.overflow .div (.integer k)) := by
  refine ends.overflow_iff.mpr ⟨by decide, ?_⟩
  rw [BinaryOp.exact, Int.tdiv_neg, Int.tdiv_one]
  exact k.greatest_lt_neg_least

/-- The remainder of the least number by minus one is zero. -/
lemma mod_least (ends : Combined .mod k k.least (-1) result) :
    result = .ok ⟨.integer k, 0#k.bits⟩ := by
  have exact : BinaryOp.mod.exact k.least (-1) = 0 := by
    rw [BinaryOp.exact, Int.tmod_neg, Int.tmod_one]
  obtain ⟨c, value, rfl⟩ := ends.ok_iff.mpr ⟨by decide, by rw [exact]; exact k.zero_within⟩
  rw [exact, ← BitVec.toInt_zero (w := k.bits)] at value
  rw [BitVec.toInt_inj.mp value]

end Combined

/-- A result outside the range is reported on the side that the signs of the operands tell. -/
lemma apply_of_outside (divides : ¬ op.LacksDivisor b.toInt)
    (outside : ¬ ((v.wider w).least ≤ op.exact a.toInt b.toInt ∧
      op.exact a.toInt b.toInt ≤ (v.wider w).greatest)) :
    apply op ⟨.integer v, a⟩ ⟨.integer w, b⟩ =
      .error ((op.side (0 < a.toInt) (0 < b.toInt)).error op (.integer (v.wider w))) := by
  have ends := combined op a b
  cases h : Word.apply op (a.signExtend (v.wider w).bits) (b.signExtend _) with
  | ok c =>
    rw [apply_integer_of_ok h] at ends
    cases ends with
    | within _ low high _ => exact absurd ⟨low, high⟩ outside
  | error fault =>
    rw [apply_integer_of_error h] at ends ⊢
    -- words know the side by the signs alone, and widening keeps the signs
    rcases Word.side_of_fault h with rfl | rfl
    · cases ends with
      | lacksDivisor lacks => exact absurd lacks divides
    · rw [Word.isPositive, Word.isPositive, BitVec.toInt_signExtend_of_le (v.bits_le_wider_left w),
        BitVec.toInt_signExtend_of_le (v.bits_le_wider_right w)]

/-- Arithmetic on two integers is exact in the wider of their kinds. It fails if and only if a
division has no divisor or the exact result is outside the range, and then the error names the side,
which the signs of the operands alone tell. -/
theorem apply_integers_exact (op : BinaryOp) (v w : Width) (a : BitVec v.bits) (b : BitVec w.bits) :
    let k := v.wider w
    let x := op.exact a.toInt b.toInt
    let result := apply op ⟨.integer v, a⟩ ⟨.integer w, b⟩
    (result = .error (.divisionByZero op) ↔ op.LacksDivisor b.toInt) ∧
    ((∃ c : BitVec k.bits, c.toInt = x ∧ result = .ok ⟨.integer k, c⟩) ↔
      ¬ op.LacksDivisor b.toInt ∧ k.least ≤ x ∧ x ≤ k.greatest) ∧
    (result = .error (.overflow op (.integer k)) ↔ ¬ op.LacksDivisor b.toInt ∧ k.greatest < x) ∧
    (result = .error (.underflow op (.integer k)) ↔ ¬ op.LacksDivisor b.toInt ∧ x < k.least) ∧
    (op = .div ∧ a.toInt = k.least ∧ b.toInt = -1 → result = .error (.overflow .div (.integer k))) ∧
    (op = .mod ∧ a.toInt = k.least ∧ b.toInt = -1 → result = .ok ⟨.integer k, 0#k.bits⟩) ∧
    (¬ op.LacksDivisor b.toInt ∧ ¬ (k.least ≤ x ∧ x ≤ k.greatest) →
      result = .error ((op.side (0 < a.toInt) (0 < b.toInt)).error op (.integer k))) := by
  intro k x result
  have ends : Combined op k a.toInt b.toInt result := combined op a b
  refine ⟨ends.divisionByZero_iff, ends.ok_iff, ends.overflow_iff, ends.underflow_iff, ?_, ?_, ?_⟩
  · rintro ⟨hop, ha, hb⟩
    rw [hop, ha, hb] at ends
    exact ends.div_least
  · rintro ⟨hop, ha, hb⟩
    rw [hop, ha, hb] at ends
    exact ends.mod_least
  · rintro ⟨divides, outside⟩
    exact apply_of_outside divides outside

/-- The least `int16` divided by an `int8` minus one, its remainder, and a product of an `int16` and
an `int8` that is too small for an `int16`. -/
theorem apply_integers_exact_at_least :
    apply .div ⟨.int16, -32768#16⟩ ⟨.int8, -1#8⟩ = .error (.overflow .div .int16) ∧
    apply .mod ⟨.int16, -32768#16⟩ ⟨.int8, -1#8⟩ = .ok ⟨.int16, 0#16⟩ ∧
    apply .mul ⟨.int16, 300#16⟩ ⟨.int8, -128#8⟩ = .error (.underflow .mul .int16) := by
  obtain ⟨-, -, -, -, div, -, -⟩ := apply_integers_exact .div .w16 .w8 (-32768#16) (-1#8)
  obtain ⟨-, -, -, -, -, mod, -⟩ := apply_integers_exact .mod .w16 .w8 (-32768#16) (-1#8)
  obtain ⟨-, -, -, -, -, -, mul⟩ := apply_integers_exact .mul .w16 .w8 (300#16) (-128#8)
  exact ⟨div (by decide), mod (by decide), mul (by decide)⟩

end Operand

end TypedStack
