import TypedStack.Proofs.Promotion
import TypedStack.Proofs.Rebuilding

/-!
# Equality of operands

Operands are compared by their numbers and by their texts. Numbers are compared by what they stand
for, so that the two zeros of a floating-point kind are equal and not-a-number differs from itself.
Since texts tell all numbers of a kind apart, the zeros included, two operands are equal if and only
if they have the same bits and are not not-a-number.
-/

namespace TypedStack

/-! ## Equal numbers -/

namespace Quantity

/-- Numeric equality: the sign of zero does not count, and not-a-number is equal to nothing. -/
def Equals : Quantity → Quantity → Prop
  | finite _ x, finite _ y => x = y
  | infinite s, infinite t => s = t
  | _, _ => False

/-- Only what is not a number differs from itself. -/
lemma equals_self_iff (q : Quantity) : q.Equals q ↔ q ≠ nan := by
  cases q with
  | nan => exact iff_of_false nofun fun ne => ne rfl
  | infinite s => exact iff_of_true rfl nofun
  | finite s x => exact iff_of_true rfl nofun

/-- What equals something is a number. -/
lemma Equals.ne_nan {q r : Quantity} (h : q.Equals r) : q ≠ nan := by
  rintro rfl
  exact h

/-- What is equal is the same, up to a sign. -/
lemma Equals.eq_or_opposite {q r : Quantity} (h : q.Equals r) :
    q = r ∨ ∃ s x, q = finite s x ∧ r = finite (!s) x := by
  cases q with
  | nan => exact h.elim
  | infinite s =>
    cases r with
    | nan => exact h.elim
    | infinite t => exact .inl (congrArg infinite h)
    | finite t y => exact h.elim
  | finite s x =>
    cases r with
    | nan => exact h.elim
    | infinite t => exact h.elim
    | finite t y =>
      obtain rfl : x = y := h
      by_cases same : t = s
      · exact .inl (by rw [same])
      · exact .inr ⟨s, x, rfl, by rw [Bool.eq_not_of_ne same]⟩

end Quantity

namespace Binary

variable {f : Format}

/-- Finite numbers are equal if they have the same magnitude, and the same sign unless they are
zero. -/
lemma withSign_magnitude_eq_iff {s t : Bool} {a b : Nat} :
    withSign s (f.magnitude a) = withSign t (f.magnitude b) ↔ a = b ∧ (s = t ∨ a = 0) := by
  constructor
  · intro h
    have same : f.magnitude a = f.magnitude b := by
      rw [← abs_of_nonneg (f.magnitude_nonneg a), ← abs_of_nonneg (f.magnitude_nonneg b),
        ← abs_withSign s, h, abs_withSign]
    obtain rfl := f.magnitude_injective same
    refine ⟨rfl, or_iff_not_imp_left.mpr fun ne => ?_⟩
    exact f.magnitude_eq_zero_iff.mp (eq_zero_of_withSign_eq ne h)
  · rintro ⟨rfl, rfl | rfl⟩
    · rfl
    · rw [f.magnitude_zero, withSign_zero, withSign_zero]

/-- Floating-point numbers are compared by what they stand for. -/
lemma equal_iff (x y : Binary f) : x.equal y = true ↔ x.quantity.Equals y.quantity := by
  cases x with
  | nan => exact iff_of_false nofun nofun
  | infinite s =>
    cases y with
    | nan => exact iff_of_false nofun nofun
    | infinite t => exact beq_iff_eq
    | finite t b => exact iff_of_false nofun nofun
  | finite s a =>
    cases y with
    | nan => exact iff_of_false nofun nofun
    | infinite t => exact iff_of_false nofun nofun
    | finite t b =>
      refine Iff.trans ?_ withSign_magnitude_eq_iff.symm
      rw [equal, Bool.and_eq_true, Bool.or_eq_true, beq_iff_eq, beq_iff_eq, beq_iff_eq, Fin.ext_iff]

/-- Both zeros stand for zero. -/
lemma quantity_zero (p : Precision) (s : Bool) : (zero p.format s).quantity = .finite s 0 := by
  have small : 0 < p.format.units p.format.finiteCodes := p.format.units_pos (by cases p <;> decide)
  have unrounded :=
    quantity_round_of_significantBits (s := s) Nat.one_pos (.of_lt (Nat.two_pow_pos _)) small
  rw [Nat.cast_zero, zero_div, withSign_zero] at unrounded
  exact unrounded

/-- Numbers that are equal and not the same are the two zeros. -/
lemma equals_and_ne_iff (p : Precision) (x y : Binary p.format) :
    x.quantity.Equals y.quantity ∧ x ≠ y ↔ ∃ s, x = zero p.format s ∧ y = zero p.format !s := by
  constructor
  · rintro ⟨equal, ne⟩
    rcases equal.eq_or_opposite with same | ⟨s, u, hx, hy⟩
    · exact absurd (quantity_injective same) ne
    · obtain ⟨a, -, value⟩ := exists_code_of_quantity hx
      obtain ⟨b, -, value'⟩ := exists_code_of_quantity hy
      obtain ⟨-, signs⟩ := withSign_magnitude_eq_iff.mp (value.trans value'.symm)
      have none : a.val = 0 := signs.resolve_left fun same => (Bool.eq_not_self s).mp same
      obtain rfl : 0 = u := by rw [← value, none, Format.magnitude_zero, withSign_zero]
      exact ⟨s, quantity_injective (hx.trans (quantity_zero p s).symm),
        quantity_injective (hy.trans (quantity_zero p !s).symm)⟩
  · rintro ⟨s, rfl, rfl⟩
    rw [quantity_zero, quantity_zero]
    refine ⟨rfl, fun same => ?_⟩
    have signs := congrArg quantity same
    rw [quantity_zero, quantity_zero] at signs
    exact (Bool.eq_not_self s).mp (Quantity.finite.inj signs).1

end Binary

namespace Value

variable {k : Kind}

/-- Numbers of one kind are compared by what they stand for. -/
lemma equal_iff (a b : Value k) : a.equal b = true ↔ a.quantity.Equals b.quantity := by
  cases k with
  | integer w =>
    refine decide_eq_true_iff.trans ?_
    show a = b ↔ ((BitVec.toInt a : Int) : ℚ) = (BitVec.toInt b : Int)
    rw [Int.cast_inj]
    exact ⟨fun h => h ▸ rfl, BitVec.eq_of_toInt_eq⟩
  | floating p => exact Binary.equal_iff a b

end Value

namespace Operand

/-- Operands have the same number if they are of one kind and numerically equal. -/
lemma sameNumber_iff (x y : Operand) :
    x.sameNumber y = true ↔ x.kind = y.kind ∧ x.quantity.Equals y.quantity := by
  obtain ⟨j, a⟩ := x
  obtain ⟨k, b⟩ := y
  by_cases kinds : j = k
  · subst kinds
    have number : sameNumber ⟨j, a⟩ ⟨j, b⟩ = a.equal b := dif_pos rfl
    rw [number, Value.equal_iff]
    exact (and_iff_right rfl).symm
  · refine iff_of_false ?_ fun h => kinds h.1
    rw [sameNumber, dif_neg fun h => kinds h.symm]
    exact Bool.false_ne_true

/-- An operand is equal to itself only, and not even to itself if it is not-a-number. -/
lemma same_iff (x y : Operand) : x.same y = true ↔ x = y ∧ x.quantity ≠ .nan := by
  rw [same, Bool.and_eq_true, sameNumber_iff, beq_iff_eq]
  constructor
  · rintro ⟨⟨kinds, equal⟩, texts⟩
    refine ⟨?_, equal.ne_nan⟩
    obtain ⟨j, a⟩ := x
    obtain ⟨k, b⟩ := y
    obtain rfl : j = k := kinds
    rw [value_eq_of_text_eq texts]
  · rintro ⟨rfl, number⟩
    exact ⟨⟨rfl, (Quantity.equals_self_iff _).mpr number⟩, rfl⟩

/-- Different operands with the same number are the two zeros of a floating-point kind. -/
lemma sameNumber_and_not_same_iff (x y : Operand) :
    x.sameNumber y = true ∧ x.same y = false ↔
      ∃ p s, x = ⟨.floating p, Binary.zero p.format s⟩ ∧
        y = ⟨.floating p, Binary.zero p.format !s⟩ := by
  rw [sameNumber_iff, ← Bool.not_eq_true, same_iff]
  constructor
  · rintro ⟨⟨kinds, equal⟩, other⟩
    obtain ⟨k, a⟩ := x
    obtain ⟨j, b⟩ := y
    obtain rfl : k = j := kinds
    have ne : a ≠ b := by
      rintro rfl
      exact other ⟨rfl, equal.ne_nan⟩
    -- equal integers are the same word, so the kind is a floating-point one
    cases k with
    | integer w =>
      have same : a.equal b = true := (Value.equal_iff a b).mpr equal
      exact absurd (of_decide_eq_true same) ne
    | floating p =>
      obtain ⟨s, rfl, rfl⟩ := (Binary.equals_and_ne_iff p a b).mp ⟨equal, ne⟩
      exact ⟨p, s, rfl, rfl⟩
  · rintro ⟨p, s, rfl, rfl⟩
    obtain ⟨equal, ne⟩ := (Binary.equals_and_ne_iff p _ _).mpr ⟨s, rfl, rfl⟩
    refine ⟨⟨rfl, equal⟩, fun same => ne ?_⟩
    exact eq_of_heq (Operand.mk.inj same.1).2

end Operand

/-! ## Equal bits -/

/-- How many bits a number of the kind has. -/
def Kind.width : Kind → Nat
  | .integer w => w.bits
  | .floating p => p.format.width

/-- The number that a pattern stands for. -/
def Value.ofBits : {k : Kind} → BitVec k.width → Value k
  | .integer _, v => v
  | .floating _, v => Binary.ofBits v

/-- The bits of a number, together with its kind. -/
structure Pattern where
  kind : Kind
  bits : BitVec kind.width

namespace Pattern

/-- The operand that a pattern stands for. -/
def operand (n : Pattern) : Operand := ⟨n.kind, Value.ofBits n.bits⟩

/-- The pattern is one of not-a-number. -/
def IsNaN : Pattern → Prop
  | ⟨.integer _, _⟩ => False
  | ⟨.floating _, v⟩ => Binary.IsNaN v

variable {n m : Pattern}

/-- Whatever an operand was made by, it has a pattern. -/
lemma exists_operand (x : Operand) : ∃ n : Pattern, n.operand = x := by
  obtain ⟨k, a⟩ := x
  cases k with
  | integer w => exact ⟨⟨.integer w, a⟩, rfl⟩
  | floating p =>
    obtain ⟨v, rfl⟩ := Binary.exists_ofBits (f := p.format) (by cases p <;> decide) a
    exact ⟨⟨.floating p, v⟩, rfl⟩

/-- Only a pattern of not-a-number stands for no number. -/
lemma quantity_operand_eq_nan_iff (n : Pattern) : n.operand.quantity = .nan ↔ n.IsNaN := by
  obtain ⟨k, v⟩ := n
  cases k with
  | integer w => exact iff_of_false nofun id
  | floating p =>
    have nan : (Binary.ofBits v).quantity = .nan ↔ Binary.ofBits v = .nan :=
      Binary.quantity_injective.eq_iff' rfl
    exact nan.trans Binary.ofBits_eq_nan_iff

/-- Operands tell the patterns of numbers apart. -/
lemma eq_of_operand_eq (hn : ¬ n.IsNaN) (hm : ¬ m.IsNaN) (h : n.operand = m.operand) : n = m := by
  obtain ⟨j, v⟩ := n
  obtain ⟨k, w⟩ := m
  obtain ⟨kinds, values⟩ := Operand.mk.inj h
  obtain rfl : j = k := kinds
  have values := eq_of_heq values
  cases j with
  | integer _ => exact congrArg (Pattern.mk _) values
  | floating p =>
    have bits := Binary.bits?_ofBits hn
    rw [show Binary.ofBits v = Binary.ofBits w from values, Binary.bits?_ofBits hm] at bits
    rw [Option.some.inj bits]

end Pattern

/-- Operands are equal if and only if they have the same kind and the same bits, and are not
not-a-number, whatever they were made by. Their numbers are equal if and only if they have the same
kind and are numerically equal. The two relations differ on the two zeros of a floating-point kind,
and nowhere else: these are equal numbers and different operands. So an operand that is made again
from the number of another one is equal to it, unless it is not-a-number. -/
theorem same_iff_same_bits :
    (∀ x : Operand, ∃ n : Pattern, n.operand = x) ∧
    (∀ n m : Pattern, n.operand.same m.operand = true ↔ ¬ n.IsNaN ∧ ¬ m.IsNaN ∧ n = m) ∧
    (∀ x y : Operand, x.sameNumber y = true ↔ x.kind = y.kind ∧ x.quantity.Equals y.quantity) ∧
    (∀ x y : Operand, x.same y = true → x.sameNumber y = true) ∧
    (∀ x y : Operand, x.sameNumber y = true ∧ x.same y = false ↔
      ∃ p s, x = ⟨.floating p, Binary.zero p.format s⟩ ∧
      y = ⟨.floating p, Binary.zero p.format !s⟩) ∧
    (∀ n : Pattern, Operand.same ⟨n.operand.kind, n.operand.value⟩ n.operand = true ↔
      ¬ n.IsNaN) := by
  refine ⟨Pattern.exists_operand, ?_, Operand.sameNumber_iff, ?_,
    Operand.sameNumber_and_not_same_iff, ?_⟩
  · intro n m
    rw [Operand.same_iff, Ne, n.quantity_operand_eq_nan_iff]
    constructor
    · rintro ⟨same, hn⟩
      have hm : ¬ m.IsNaN := by
        rwa [← m.quantity_operand_eq_nan_iff, ← same, n.quantity_operand_eq_nan_iff]
      exact ⟨hn, hm, Pattern.eq_of_operand_eq hn hm same⟩
    · rintro ⟨hn, -, rfl⟩
      exact ⟨rfl, hn⟩
  · intro x y same
    exact (Bool.and_eq_true_iff.mp same).1
  · intro n
    rw [Operand.same_iff, Ne, ← n.quantity_operand_eq_nan_iff]
    exact and_iff_right rfl

end TypedStack
