import TypedStack.Proofs.Promotion

/-!
# Faults of floating-point arithmetic

An operation with a floating-point operand fails in two cases only: a division by a number that was
zero before it was converted, and a product that is infinite, be it too large or a product with an
infinity.
-/

namespace TypedStack

namespace Quantity

/-- Either of the zeros. -/
def IsZero : Quantity → Prop
  | finite _ x => x = 0
  | _ => False

/-- The product is infinite if numbers are rounded to infinity from `bound` on. A product of an
infinity and zero is not-a-number. -/
def InfiniteProduct (bound : ℚ) : Quantity → Quantity → Prop
  | infinite _, infinite _ => True
  | infinite _, finite _ y => y ≠ 0
  | finite _ x, infinite _ => x ≠ 0
  | finite _ x, finite _ y => bound ≤ |x * y|
  | _, _ => False

end Quantity

namespace Binary

variable {f : Format} {op : BinaryOp} {x y : Binary f}

/-- The test for zero finds both zeros and nothing else. -/
lemma isZero_iff (x : Binary f) : x.isZero = true ↔ x.quantity.IsZero := by
  cases x with
  | nan => exact iff_of_false nofun nofun
  | infinite _ => exact iff_of_false nofun nofun
  | finite s code =>
    show (code.val == 0) = true ↔ withSign s (f.magnitude code) = 0
    rw [beq_iff_eq, withSign_eq_zero_iff, f.magnitude_eq_zero_iff]

/-- Infinity times a number is infinite unless the number is zero. -/
lemma isInfinite_ite_iff {s : Bool} {c : Fin f.finiteCodes} (t : Bool) :
    (if c.val = 0 then nan else infinite s : Binary f).isInfinite = true ↔
      withSign t (f.magnitude c) ≠ 0 := by
  rw [Ne, withSign_eq_zero_iff, f.magnitude_eq_zero_iff]
  split
  · next zero => exact iff_of_false nofun fun ne => ne zero
  · next ne => exact iff_of_true rfl ne

/-- The product of magnitudes, computed in units. -/
lemma abs_mul_eq_units {s t : Bool} (a b : Nat) :
    |withSign s (f.magnitude a) * withSign t (f.magnitude b)| =
      (f.units a * f.units b : Nat) / f.one / f.one := by
  rw [abs_mul, abs_withSign, abs_withSign, abs_of_nonneg (f.magnitude_nonneg a),
    abs_of_nonneg (f.magnitude_nonneg b), Format.magnitude, Format.magnitude, div_mul_div_comm,
    Nat.cast_mul, div_div]

/-- A product is infinite if a factor is, or if the exact product reaches the bound. -/
theorem isInfinite_mul_iff (p : Precision) (x y : Binary p.format) :
    (x.mul y).isInfinite = true ↔ x.quantity.InfiniteProduct p.bound y.quantity := by
  cases x with
  | nan => exact iff_of_false nofun nofun
  | infinite s =>
    cases y with
    | nan => exact iff_of_false nofun nofun
    | infinite t => exact iff_of_true rfl trivial
    | finite t b => exact isInfinite_ite_iff t
  | finite s a =>
    cases y with
    | nan => exact iff_of_false nofun nofun
    | infinite t => exact isInfinite_ite_iff s
    | finite t b =>
      refine (p.isInfinite_round_iff_bound_le (by exact_mod_cast p.format.one_pos)).trans ?_
      rw [← abs_mul_eq_units]
      rfl

/-- There is no quotient and no remainder by zero. -/
lemma apply_of_isZero (divides : op = .div ∨ op = .mod) (zero : y.isZero = true) :
    apply op x y = .error .divisionByZero := by
  rcases divides with rfl | rfl
  · exact if_pos zero
  · exact if_pos zero

/-- Nothing else but a product can fail. -/
lemma exists_apply (ne : op ≠ .mul) (divisor : ¬ ((op = .div ∨ op = .mod) ∧ y.isZero = true)) :
    ∃ z, apply op x y = .ok z := by
  cases op with
  | add => exact ⟨_, rfl⟩
  | sub => exact ⟨_, rfl⟩
  | mul => exact absurd rfl ne
  | div => exact ⟨_, if_neg fun zero => divisor ⟨.inl rfl, zero⟩⟩
  | mod => exact ⟨_, if_neg fun zero => divisor ⟨.inr rfl, zero⟩⟩

end Binary

/-- A number is zero after a conversion if and only if it was zero before, although the conversion
may round it. -/
lemma Value.isZero_widen {k : Kind} {p : Precision} (h : k ≤ .floating p) (x : Value k) :
    Binary.isZero (x.widen h) = true ↔ x.quantity.IsZero := by
  cases k with
  | integer w =>
    refine (Binary.isZero_ofInt_iff p (BitVec.toInt x)).trans ?_
    show _ ↔ ((BitVec.toInt x : Int) : ℚ) = 0
    rw [Int.cast_eq_zero]
  | floating q =>
    refine (Binary.isZero_iff (Binary.convert p.format x)).trans ?_
    rw [Value.quantity_convert h x]
    rfl

namespace Kind

/-- The wider of two kinds is one of them, and a floating-point kind if one of them is. -/
lemma exists_promote_floating {j k : Kind} (floating : j.isInteger = false ∨ k.isInteger = false) :
    ∃ p, j.promote k = .floating p ∧ (.floating p = j ∨ .floating p = k) := by
  have one : j.promote k = j ∨ j.promote k = k := (ite_eq_or_eq _ k j).symm
  have integer : ¬ (j.promote k).isInteger = true := by
    intro integer
    rcases floating with h | h
    · exact Bool.false_ne_true (h.symm.trans (isInteger_of_le (j.le_promote_left k) integer))
    · exact Bool.false_ne_true (h.symm.trans (isInteger_of_le (j.le_promote_right k) integer))
  cases promoted : j.promote k with
  | integer w =>
    rw [promoted] at integer
    exact absurd rfl integer
  | floating p =>
    rw [promoted] at one
    exact ⟨p, rfl, one⟩

end Kind

namespace Operand

variable {op : BinaryOp} {p : Precision} {a b : Binary p.format} {result : Except Error Operand}

/-- Everything that can become of an operation on the numbers `a` and `b` in precision `p`. -/
inductive Rounded (op : BinaryOp) (a b : Binary p.format) : Except Error Operand → Prop where
  | lacksDivisor : (op = .div ∨ op = .mod) ∧
    b.isZero = true → Rounded op a b (.error (.divisionByZero op))
  | infinite : op = .mul → (a.mul b).isInfinite = true →
    Rounded op a b (.error (.overflow .mul (.floating p)))
  | result {c : Binary p.format} :
    ¬ ((op = .div ∨ op = .mod) ∧ b.isZero = true) →
      (op = .mul → c = a.mul b ∧ c.isInfinite = false) →
    Rounded op a b (.ok ⟨.floating p, c⟩)

/-- Every operation on numbers of one floating-point kind ends in one of these ways. -/
lemma rounded (op : BinaryOp) (a b : Value (.floating p)) :
    Rounded op a b (apply op ⟨.floating p, a⟩ ⟨.floating p, b⟩) := by
  rw [apply_of_same_kind]
  by_cases lacks : (op = .div ∨ op = .mod) ∧ b.isZero = true
  · have failed : @Value.apply op (.floating p) a b = .error .divisionByZero :=
      Binary.apply_of_isZero lacks.1 lacks.2
    rw [failed]
    exact .lacksDivisor lacks
  · -- of the operations that have what they need, only a product can still fail
    by_cases mul : op = .mul
    · subst mul
      cases infinite : (a.mul b).isInfinite with
      | true =>
        have failed : @Value.apply .mul (.floating p) a b = .error .overflow := if_pos infinite
        rw [failed]
        exact .infinite rfl infinite
      | false =>
        have ok : @Value.apply .mul (.floating p) a b = .ok (a.mul b) :=
          if_neg (Bool.eq_false_iff.mp infinite)
        rw [ok]
        exact .result lacks fun _ => ⟨rfl, infinite⟩
    · obtain ⟨c, ok⟩ := Binary.exists_apply (x := a) mul lacks
      have ok : @Value.apply op (.floating p) a b = .ok c := ok
      rw [ok]
      exact .result lacks fun h => absurd h mul

namespace Rounded

/-- A division by zero is reported where the divisor is zero, and only there. -/
lemma divisionByZero_iff (ends : Rounded op a b result) :
    result = .error (.divisionByZero op) ↔ (op = .div ∨ op = .mod) ∧ b.isZero = true := by
  cases ends with
  | lacksDivisor lacks => exact iff_of_true rfl lacks
  | infinite mul _ =>
    subst mul
    exact iff_of_false nofun (by simp)
  | result divides _ => exact iff_of_false nofun divides

/-- An overflow is reported where a product is infinite, and only there. -/
lemma overflow_iff (ends : Rounded op a b result) :
    result = .error (.overflow .mul (.floating p)) ↔ op = .mul ∧ (a.mul b).isInfinite = true := by
  cases ends with
  | lacksDivisor lacks =>
    refine iff_of_false nofun ?_
    rintro ⟨rfl, -⟩
    simp at lacks
  | infinite mul infinite => exact iff_of_true rfl ⟨mul, infinite⟩
  | result _ product =>
    refine iff_of_false nofun ?_
    rintro ⟨mul, infinite⟩
    obtain ⟨rfl, finite⟩ := product mul
    exact Bool.false_ne_true (finite.symm.trans infinite)

/-- The only errors are a missing divisor and an infinite product. -/
lemma error_cases (ends : Rounded op a b result) {e : Error} (failed : result = .error e) :
    e = .divisionByZero op ∨ e = .overflow .mul (.floating p) := by
  cases ends with
  | lacksDivisor _ =>
    cases failed
    exact .inl rfl
  | infinite _ _ =>
    cases failed
    exact .inr rfl
  | result _ _ => cases failed

/-- A result is of the same kind, and a product is a finite one. -/
lemma of_ok (ends : Rounded op a b result) {x : Operand} (ok : result = .ok x) :
    ∃ c : Binary p.format, x = ⟨.floating p, c⟩ ∧
      (op = .mul → c = a.mul b ∧ c.isInfinite = false) := by
  cases ends with
  | lacksDivisor _ => cases ok
  | infinite _ _ => cases ok
  | @result c _ product =>
    cases ok
    exact ⟨c, rfl, product⟩

end Rounded

/-- An operation of which at least one operand is a floating-point number is carried out in the
wider of the two kinds. It fails if and only if it divides by a number that is zero, whatever the
other operand is, or multiplies and the product is infinite. Nothing else fails, not even an
infinite sum or quotient, and a product that is returned is not infinite. -/
theorem apply_floating_fails_exactly (op : BinaryOp) (l r : Operand)
    (floating : l.kind.isInteger = false ∨ r.kind.isInteger = false) :
    ∃ (p : Precision) (hl : l.kind ≤ .floating p) (hr : r.kind ≤ .floating p),
      l.kind.promote r.kind = .floating p ∧ (.floating p = l.kind ∨ .floating p = r.kind) ∧
      let a : Binary p.format := l.value.widen hl
      let b : Binary p.format := r.value.widen hr
      let result := apply op l r
      (result = .error (.divisionByZero op) ↔ (op = .div ∨ op = .mod) ∧ r.quantity.IsZero) ∧
      (result = .error (.overflow .mul (.floating p)) ↔ op = .mul ∧ (a.mul b).isInfinite = true) ∧
      ((a.mul b).isInfinite = true ↔ a.quantity.InfiniteProduct p.bound b.quantity) ∧
      (∀ e, result = .error e → e = .divisionByZero op ∨ e = .overflow .mul (.floating p)) ∧
      (∀ x, result = .ok x →
        ∃ c : Binary p.format, x = ⟨.floating p, c⟩ ∧
        (op = .mul → c = a.mul b ∧ c.isInfinite = false)) := by
  obtain ⟨p, promoted, wider⟩ := Kind.exists_promote_floating floating
  have hl : l.kind ≤ .floating p := promoted ▸ l.kind.le_promote_left r.kind
  have hr : r.kind ≤ .floating p := promoted ▸ l.kind.le_promote_right r.kind
  refine ⟨p, hl, hr, promoted, wider, ?_⟩
  intro a b result
  have converted : result = apply op ⟨.floating p, a⟩ ⟨.floating p, b⟩ := apply_widen promoted op
  have ends : Rounded op a b result := by
    rw [converted]
    exact rounded op a b
  have zero : b.isZero = true ↔ r.quantity.IsZero := Value.isZero_widen hr r.value
  exact ⟨ends.divisionByZero_iff.trans (and_congr_right fun _ => zero), ends.overflow_iff,
    Binary.isInfinite_mul_iff p a b, fun _ => ends.error_cases, fun _ => ends.of_ok⟩

/-- Not-a-number divided by an integer zero, an infinity modulo the negative zero, an infinity times
an integer, and an infinity times the integer zero, which does not fail. -/
theorem apply_floating_fails_exactly_at_infinity :
    let negativeZero : Value .float := Binary.finite true ⟨0, by decide⟩
    let infinity : Value .double := Binary.infinite false
    apply .div ⟨.float, Binary.nan⟩ ⟨.int32, 0#32⟩ = .error (.divisionByZero .div) ∧
    apply .mod ⟨.double, infinity⟩ ⟨.float, negativeZero⟩ = .error (.divisionByZero .mod) ∧
    apply .mul ⟨.int8, -1#8⟩ ⟨.double, infinity⟩ = .error (.overflow .mul .double) ∧
    apply .mul ⟨.int8, 0#8⟩ ⟨.double, infinity⟩ ≠ .error (.overflow .mul .double) := by
  intro negativeZero infinity
  obtain ⟨-, -, -, -, -, div, -⟩ :=
    apply_floating_fails_exactly .div ⟨.float, Binary.nan⟩ ⟨.int32, 0#32⟩ (.inl rfl)
  obtain ⟨-, -, -, -, -, mod, -⟩ :=
    apply_floating_fails_exactly .mod ⟨.double, infinity⟩ ⟨.float, negativeZero⟩ (.inl rfl)
  obtain ⟨p, _, _, promoted, -, -, mul, -⟩ :=
    apply_floating_fails_exactly .mul ⟨.int8, -1#8⟩ ⟨.double, infinity⟩ (.inr rfl)
  obtain rfl : Precision.double = p := Kind.floating.inj promoted
  obtain ⟨p, _, _, promoted, -, -, none, -⟩ :=
    apply_floating_fails_exactly .mul ⟨.int8, 0#8⟩ ⟨.double, infinity⟩ (.inr rfl)
  obtain rfl : Precision.double = p := Kind.floating.inj promoted
  have infinite : ((Binary.ofInt .double (-1)).mul (.infinite false)).isInfinite = true := by
    decide +kernel
  have invalid : ¬ ((Binary.ofInt .double 0).mul (.infinite false)).isInfinite = true := by
    decide +kernel
  refine ⟨div.mpr ⟨.inl rfl, Int.cast_zero⟩, mod.mpr ⟨.inr rfl, ?_⟩, mul.mpr ⟨rfl, infinite⟩, ?_⟩
  · exact (Binary.isZero_iff negativeZero).mp rfl
  · intro failed
    exact invalid (none.mp failed).2

end Operand

end TypedStack
