import TypedStack.Proofs.Integers
import TypedStack.Proofs.Quantity

/-!
# Promotion

Both operands of an operation are first converted to the wider of their kinds. The converted number
stands for the same as the number it comes from, whatever the two kinds are, with one exception: a
`float` has no room for all the bits of an `int32`, and the integers that need more of them are
rounded.
-/

namespace TypedStack

namespace Binary

variable {f g : Format} {n : Int}

/-! ## Integers -/

/-- The number of an integer in units, as it is rounded. -/
lemma withSign_units (f : Format) (n : Int) :
    withSign (n < 0) (((n.natAbs * f.one : Nat) : ℚ) / (1 : Nat) / f.one) = n := by
  rw [Nat.cast_mul, Nat.cast_one, div_one, mul_div_cancel_right₀ _ f.one_pos.ne', withSign_natAbs]

/-- An integer that has a code is converted exactly if it has few significant bits, and only
then. -/
lemma quantity_ofInt_iff (small : n.natAbs * f.one < f.units f.finiteCodes) :
    (ofInt f n).quantity = .finite (n < 0) n ↔ SignificantBits (f.fractionBits + 1) n.natAbs := by
  constructor
  · intro same
    obtain ⟨code, -, value⟩ := exists_code_of_quantity same
    rw [← withSign_natAbs] at value
    have magnitude : f.magnitude code = n.natAbs := withSign_injective _ value
    have units : f.units code = n.natAbs * f.one := by
      exact_mod_cast (div_eq_iff f.one_pos.ne').mp magnitude
    have few := f.significantBits_units code
    rw [units, f.one_eq] at few
    exact few.of_mul_two_pow
  · intro few
    have units := few.mul_two_pow f.scale
    rw [← f.one_eq] at units
    have exact := quantity_round_of_significantBits (s := n < 0) Nat.one_pos units small
    rw [Nat.mul_one, Nat.cast_mul, mul_div_cancel_right₀ _ f.one_pos.ne', withSign_natAbs] at exact
    exact exact

/-- An integer that is not too great is converted to the nearest number. -/
lemma isNearest_ofInt (finite : (ofInt f n).isInfinite = false) : (ofInt f n).IsNearest n := by
  have near := isNearest_round Nat.one_pos finite
  rw [withSign_units] at near
  exact near

/-- An integer is too great from the bound of the precision on. -/
lemma isInfinite_ofInt_iff (p : Precision) (n : Int) :
    (ofInt p.format n).isInfinite = true ↔ p.bound ≤ n.natAbs := by
  rw [ofInt, p.isInfinite_round_iff_bound_le Nat.one_pos, Nat.cast_mul, Nat.cast_one, div_one,
    mul_div_cancel_right₀ _ p.format.one_pos.ne']

/-- Only zero is converted to zero. -/
lemma isZero_ofInt_iff (p : Precision) (n : Int) : (ofInt p.format n).isZero = true ↔ n = 0 := by
  have near : p.format.IsNearest _ (p.format.nearestCode (n.natAbs * p.format.one) 1) :=
    Format.isNearest_nearestCode Nat.one_pos
  constructor
  · intro zero
    by_contra ne
    have units : 1 ≤ n.natAbs * p.format.one :=
      Nat.mul_pos (Int.natAbs_pos.mpr ne) (by exact_mod_cast p.format.one_pos)
    have pos := near.pos (by rw [Nat.cast_one, div_one]; exact_mod_cast units)
    rw [ofInt] at zero
    rcases Nat.lt_or_ge (p.format.nearestCode (n.natAbs * p.format.one) 1) p.format.finiteCodes
      with finite | large
    · rw [round_of_lt finite] at zero
      exact pos.ne' (beq_iff_eq.mp zero)
    · rw [round_of_ge large] at zero
      cases zero
  · rintro rfl
    cases p <;> decide +kernel

/-! ## Floating-point numbers -/

/-- A format that has no less bits and reaches no less far in both directions holds every number of
another one. -/
lemma quantity_convert (bits : f.fractionBits ≤ g.fractionBits) (scale : f.scale ≤ g.scale)
    (range : f.units f.finiteCodes * 2 ^ (g.scale - f.scale) ≤ g.units g.finiteCodes)
    (x : Binary f) :
    (convert g x).quantity = x.quantity := by
  cases x with
  | nan => rfl
  | infinite s => rfl
  | finite s a =>
    have one : g.one = 2 ^ (g.scale - f.scale) * f.one := by
      rw [g.one_eq, f.one_eq, ← Nat.pow_add, Nat.sub_add_cancel scale]
    have few :=
      ((f.significantBits_units a).mono (Nat.succ_le_succ bits)).mul_two_pow (g.scale - f.scale)
    have small : f.units a * 2 ^ (g.scale - f.scale) < g.units g.finiteCodes :=
      (Nat.mul_lt_mul_of_pos_right (f.units_strictMono a.isLt) (Nat.two_pow_pos _)).trans_le range
    have exact := quantity_round_of_significantBits (s := s) (by exact_mod_cast f.one_pos) few small
    rw [Nat.mul_assoc, ← one] at exact
    show (round g s (f.units a * g.one) f.one).quantity = .finite s (withSign s (f.magnitude a))
    rw [exact, one, Format.magnitude, Nat.cast_mul, Nat.cast_mul,
      mul_comm ((2 ^ (g.scale - f.scale) : Nat) : ℚ), mul_div_mul_right]
    exact_mod_cast (Nat.two_pow_pos _).ne'

end Binary

/-! ## Conversions -/

namespace Width

variable {w : Width}

/-- No integer of a width is further from zero than the least. -/
lemma natAbs_toInt_le (a : BitVec w.bits) : a.toInt.natAbs ≤ w.least.natAbs := by
  obtain ⟨low, high⟩ := Word.toInt_bounds w.bits_pos a
  have range := w.greatest_lt_neg_least
  rw [w.toInt_intMin] at low
  rw [w.toInt_intMax] at high
  omega

/-- No integer is near the greatest number of a precision. -/
lemma units_lt (p : Precision) (a : BitVec w.bits) :
    a.toInt.natAbs * p.format.one < p.format.units p.format.finiteCodes := by
  refine (Nat.mul_le_mul_right _ (natAbs_toInt_le a)).trans_lt ?_
  cases w <;> cases p <;> decide +kernel

/-- A wider integer kind has no fewer bits. -/
lemma bits_le_of_le {v : Width} (h : Kind.integer v ≤ .integer w) : v.bits ≤ w.bits := by
  revert h
  cases v <;> cases w <;> decide

end Width

namespace Value

variable {j k : Kind}

/-- A number of a narrower precision is kept by a wider one. -/
lemma quantity_convert {p q : Precision} (h : Kind.floating p ≤ .floating q) (x : Binary p.format) :
    (Binary.convert q.format x).quantity = x.quantity := by
  cases p <;> cases q
  · exact Binary.quantity_convert le_rfl le_rfl (by decide +kernel) x
  · exact Binary.quantity_convert (by decide) (by decide) (by decide +kernel) x
  · exact absurd h (by decide)
  · exact Binary.quantity_convert le_rfl le_rfl (by decide +kernel) x

/-- A converted number stands for the same as before, unless an `int32` becomes a `float`. -/
theorem quantity_widen (h : j ≤ k) (x : Value j) (exact : ¬ (j = .int32 ∧ k = .float)) :
    (x.widen h).quantity = x.quantity := by
  cases j with
  | integer v =>
    cases k with
    | integer w =>
      have value : (BitVec.signExtend w.bits x).toInt = BitVec.toInt x :=
        BitVec.toInt_signExtend_of_le (Width.bits_le_of_le h)
      show Quantity.finite ((BitVec.signExtend w.bits x).toInt < 0)
        (BitVec.signExtend w.bits x).toInt = _
      rw [value]
      rfl
    | floating p =>
      refine (Binary.quantity_ofInt_iff (Width.units_lt p x)).mpr
        (.of_lt ((Width.natAbs_toInt_le x).trans_lt ?_))
      -- all but one of the widths have no more bits than the precision
      cases v <;> cases p
      · decide
      · decide
      · decide
      · decide
      · exact absurd ⟨rfl, rfl⟩ exact
      · decide
  | floating p =>
    cases k with
    | integer w => exact absurd h (Kind.not_floating_le_integer p w)
    | floating q => exact quantity_convert h x

/-- Numbers of one kind that stand for the same are equal. -/
lemma quantity_injective : Function.Injective (quantity (k := k)) := by
  intro x y h
  cases k with
  | integer w =>
    have value : BitVec.toInt x = BitVec.toInt y := by exact_mod_cast (Quantity.finite.inj h).2
    exact BitVec.eq_of_toInt_eq value
  | floating p => exact Binary.quantity_injective h

/-- A number that has its kind already is not changed. -/
lemma widen_self (h : k ≤ k) (x : Value k) : x.widen h = x := by
  refine quantity_injective (quantity_widen h x ?_)
  rintro ⟨rfl, ⟨⟩⟩

end Value

/-- An `int32` is converted to the nearest `float`. -/
theorem Value.isNearest_float (x : Value .int32) :
    (Binary.ofInt .single (BitVec.toInt x)).IsNearest (BitVec.toInt x) := by
  refine Binary.isNearest_ofInt (Bool.eq_false_of_not_eq_true fun infinite => ?_)
  have large := (Binary.isInfinite_ofInt_iff .single _).mp infinite
  have small : ((BitVec.toInt x).natAbs : ℚ) ≤ (2147483648 : Nat) := by
    exact_mod_cast Width.natAbs_toInt_le (w := .w32) x
  have wide : ((2147483648 : Nat) : ℚ) < Precision.single.bound := by
    rw [Precision.bound]
    norm_num
  exact absurd (large.trans small) (not_le.mpr wide)

namespace Kind

/-- A kind is the wider one of itself. -/
lemma promote_self (k : Kind) : k.promote k = k := ite_self k

/-- The wider one of two kinds is one of the two. -/
lemma promote_eq_or (j k : Kind) : j.promote k = j ∨ j.promote k = k := by
  unfold promote
  split
  · exact .inr rfl
  · exact .inl rfl

/-- A kind that is no wider than an integer kind is one. -/
lemma isInteger_of_le {j k : Kind} (h : j ≤ k) (integer : k.isInteger = true) :
    j.isInteger = true := by
  cases j with
  | integer v => rfl
  | floating p =>
    cases k with
    | integer w => exact absurd h (not_floating_le_integer p w)
    | floating q => cases integer

end Kind

namespace Operand

/-- An operand of a wider kind. -/
def widen (x : Operand) {k : Kind} (h : x.kind ≤ k) : Operand := ⟨k, x.value.widen h⟩

/-- Numbers of one kind are combined as they are. -/
lemma apply_of_same_kind {k : Kind} (op : BinaryOp) (x y : Value k) :
    apply op ⟨k, x⟩ ⟨k, y⟩ =
      match x.apply op y with
      | .ok value => .ok ⟨k, value⟩
      | .error fault => .error (fault.error op k) := by
  refine (apply_of_promote k.promote_self op).trans ?_
  dsimp only
  have widened (h : k ≤ k) : (x.widen h).apply op (y.widen h) = x.apply op y := by
    rw [Value.widen_self, Value.widen_self]
  cases outcome : x.apply op y with
  | ok z => rw [(widened _).trans outcome]
  | error fault => rw [(widened _).trans outcome]

/-- Operands may be converted to the wider kind before. -/
lemma apply_widen {l r : Operand} {k : Kind} (hk : l.kind.promote r.kind = k) (op : BinaryOp) :
    apply op l r =
      apply op (l.widen (hk ▸ l.kind.le_promote_left r.kind))
        (r.widen (hk ▸ l.kind.le_promote_right r.kind)) := by
  subst hk
  exact (apply_of_same_kind op (l.value.widen _) (r.value.widen _)).symm

/-- Operands are converted to the kind of one of them, which is at least as wide as both, and never
from a floating-point to an integer kind. The operation is that of the wider kind on the two
converted numbers, and no other conversion is made. A converted number stands for the same as
before, except that an `int32` with more than 24 significant bits becomes the nearest `float`
instead. So an operation is the same on operands that have been converted before. -/
theorem promotion_keeps_quantities (op : BinaryOp) (l r : Operand) :
    let k := l.kind.promote r.kind
    (l.kind ≤ k ∧ r.kind ≤ k ∧ (k = l.kind ∨ k = r.kind) ∧
      (k.isInteger = true → l.kind.isInteger = true ∧ r.kind.isInteger = true)) ∧
    (let x : Value k := l.value.widen (l.kind.le_promote_left r.kind)
      let y : Value k := r.value.widen (l.kind.le_promote_right r.kind)
      apply op l r =
        match x.apply op y with
        | .ok value => .ok ⟨k, value⟩
        | .error fault => .error (fault.error op k)) ∧
    (∀ (i j : Kind) (h : i ≤ j) (x : Value i), ¬ (i = .int32 ∧ j = .float) →
      (x.widen h).quantity = x.quantity) ∧
    (∀ (h : Kind.int32 ≤ .float) (x : Value .int32),
      let n := BitVec.toInt x
      let z : Binary .single := x.widen h
      z.IsNearest n ∧ (z.quantity = x.quantity ↔ SignificantBits 24 n.natAbs) ∧
        (n.natAbs ≤ 2 ^ 24 → z.quantity = x.quantity)) ∧
    apply op l r =
      apply op (l.widen (l.kind.le_promote_left r.kind))
        (r.widen (l.kind.le_promote_right r.kind)) := by
  intro k
  refine ⟨⟨l.kind.le_promote_left r.kind, l.kind.le_promote_right r.kind,
    l.kind.promote_eq_or r.kind, ?_⟩, apply_of_promote rfl op, fun i j => Value.quantity_widen, ?_,
    apply_widen rfl op⟩
  · intro integer
    exact ⟨Kind.isInteger_of_le (l.kind.le_promote_left r.kind) integer,
      Kind.isInteger_of_le (l.kind.le_promote_right r.kind) integer⟩
  · intro h x n z
    have exact_iff : z.quantity = x.quantity ↔ SignificantBits 24 n.natAbs :=
      Binary.quantity_ofInt_iff (Width.units_lt (w := .w32) .single x)
    exact ⟨x.isNearest_float, exact_iff, fun small => exact_iff.mpr (.of_le small (by decide))⟩

/-- An odd `int32` with 25 bits is not kept by a `float`, one with few bits is, and the least
positive `float` is kept by a `double`. A sum is formed in the wider kind. -/
theorem promotion_keeps_quantities_but_odd :
    let odd : Value .int32 := 16777217#32
    let even : Value .int32 := -16777216#32
    let least : Value .float := Binary.finite false ⟨1, by decide⟩
    let z : Value .float := odd.widen (by decide)
    Binary.IsNearest 16777217 z ∧ z.quantity ≠ odd.quantity ∧
    (even.widen (by decide : Kind.int32 ≤ .float)).quantity = even.quantity ∧
    (least.widen (by decide : Kind.float ≤ .double)).quantity = least.quantity ∧
    apply .add ⟨.int8, 127#8⟩ ⟨.int16, 300#16⟩ = .ok ⟨.int16, 427#16⟩ := by
  intro odd even least z
  obtain ⟨-, -, kept, rounded, -⟩ := promotion_keeps_quantities .add ⟨.int32, odd⟩ ⟨.float, least⟩
  obtain ⟨nearest, exact_iff, -⟩ := rounded (by decide) odd
  obtain ⟨-, -, small⟩ := rounded (by decide) even
  obtain ⟨-, combined, -⟩ := promotion_keeps_quantities .add ⟨.int8, 127#8⟩ ⟨.int16, 300#16⟩
  have many : ¬ SignificantBits 24 16777217 := by
    rintro ⟨m, e, few, eq⟩
    cases e with
    | zero => omega
    | succ e =>
      rw [Nat.pow_succ, ← Nat.mul_assoc] at eq
      omega
  refine ⟨?_, fun same => many (exact_iff.mp same), small (by decide),
    kept .float .double (by decide) least (by decide), combined.trans ?_⟩
  · exact_mod_cast nearest
  · decide +kernel

end Operand

end TypedStack
