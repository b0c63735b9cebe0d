import Mathlib.Data.Nat.Digits.Defs
import TypedStack.Proofs.ValueGrammar

/-!
# Texts of integers

An integer is read from a run of digits behind an optional sign, by the exact number that the run
stands for, however long it is. Many texts stand for one integer, but only one of them is canonical,
and it is the one that is written.
-/

namespace TypedStack

namespace Numeral

open RegularExpression

/-- The regular expression `[+-]?[0-9]+`. -/
def signed : RegularExpression Char := (1 + oneOf ['+', '-']) * run

/-- The regular expression `0|-?[1-9][0-9]*`: no plus sign, no leading zeros, and no minus sign
before zero. -/
def canonical : RegularExpression Char :=
  char '0' + (1 + char '-') * (oneOf "123456789".toList * (oneOf "0123456789".toList).star)

variable {c : Char} {cs : List Char} {x : Int} {n : Nat}

/-! ## Reading -/

/-- A run of digits begins with no sign, so the sign of a text is found by looking at its first
character. -/
lemma mem_signed : cs ∈ signed.matches' ↔ isDigits (splitSign cs).2 = true := by
  have optional : ∀ s, s ∈ (1 + oneOf ['+', '-']).matches' ↔ s = [] ∨ s = ['+'] ∨ s = ['-'] := by
    intro s
    rw [matches'_add, Language.mem_add, mem_oneOf]
    simp [Language.mem_one]
  rw [signed, matches'_mul, Language.mem_mul]
  constructor
  · rintro ⟨sign, hsign, digits, digitRun, rfl⟩
    have digits := mem_run.mp digitRun
    rcases (optional sign).mp hsign with rfl | rfl | rfl
    · rw [List.nil_append, splitSign_of_isDigits digits]
      exact digits
    · exact digits
    · exact digits
  · intro digits
    have digitRun := mem_run.mpr digits
    fun_cases splitSign cs with
    | case1 cs => exact ⟨['-'], (optional _).mpr (.inr (.inr rfl)), cs, digitRun, rfl⟩
    | case2 cs => exact ⟨['+'], (optional _).mpr (.inr (.inl rfl)), cs, digitRun, rfl⟩
    | case3 _ minus plus =>
      rw [splitSign.eq_3 cs minus plus] at digitRun
      exact ⟨[], (optional _).mpr (.inl rfl), cs, digitRun, rfl⟩

/-- A text is read as an integer if it is a signed run of digits, and then as the number of this
run. -/
lemma readInt?_eq_some_iff : readInt? cs = some x ↔ cs ∈ signed.matches' ∧ signedValue cs = x := by
  rw [mem_signed, readInt?_eq]
  split
  · next digits => simp [digits]
  · next other => simp [other]

/-! ## Canonical texts -/

/-- A run of digits that does not begin with zero. -/
structure IsLeading (cs : List Char) : Prop where
  digits : isDigits cs = true
  head : cs.head? ≠ some '0'

/-- There are nine digits that are not zero. -/
lemma isDigit_and_ne_zero_iff : c.isDigit = true ∧ c ≠ '0' ↔ c ∈ "123456789".toList := by
  have all : "0123456789".toList = '0' :: "123456789".toList := rfl
  have front : '0' ∉ "123456789".toList := by decide
  rw [isDigit_iff_mem, all, List.mem_cons]
  constructor
  · rintro ⟨rfl | h, ne⟩
    · exact absurd rfl ne
    · exact h
  · intro h
    exact ⟨.inr h, fun zero => front (zero ▸ h)⟩

/-- The expression for digits without leading zeros matches these. -/
lemma mem_leading :
    cs ∈ (oneOf "123456789".toList * (oneOf "0123456789".toList).star).matches' ↔ IsLeading cs := by
  rw [mem_oneOf_mul_star]
  simp only [← isDigit_iff_mem, ← isDigit_and_ne_zero_iff]
  constructor
  · rintro ⟨c, ⟨first, ne⟩, cs, rest, rfl⟩
    refine ⟨isDigits_iff.mpr ⟨List.cons_ne_nil c cs, List.forall_mem_cons.mpr ⟨first, rest⟩⟩, ?_⟩
    intro zero
    exact ne (Option.some.inj zero)
  · rintro ⟨digits, head⟩
    obtain ⟨ne, all⟩ := isDigits_iff.mp digits
    obtain ⟨c, cs, rfl⟩ := List.exists_cons_of_ne_nil ne
    obtain ⟨first, rest⟩ := List.forall_mem_cons.mp all
    exact ⟨c, ⟨first, fun zero => head (congrArg some zero)⟩, cs, rest, rfl⟩

/-- A canonical text is zero, or a run without leading zeros that a minus may stand before. -/
lemma mem_canonical :
    cs ∈ canonical.matches' ↔
      cs = ['0'] ∨ ∃ digits, IsLeading digits ∧ (cs = digits ∨ cs = '-' :: digits) := by
  rw [canonical, matches'_add, Language.mem_add, matches'_mul, Language.mem_mul]
  refine or_congr Iff.rfl ⟨?_, ?_⟩
  · rintro ⟨sign, hsign, digits, leading, rfl⟩
    refine ⟨digits, mem_leading.mp leading, ?_⟩
    rcases Literal.mem_optional_minus.mp hsign with rfl | rfl
    · exact .inl rfl
    · exact .inr rfl
  · rintro ⟨digits, leading, rfl | rfl⟩
    · exact ⟨[], Literal.mem_optional_minus.mpr (.inl rfl), cs, mem_leading.mpr leading, rfl⟩
    · exact ⟨['-'], Literal.mem_optional_minus.mpr (.inr rfl), digits, mem_leading.mpr leading, rfl⟩

/-- A digit stands for a number below ten. -/
lemma toNat_sub_lt (digit : c.isDigit = true) : c.toNat - '0'.toNat < 10 := by
  obtain ⟨low, high⟩ := Char.isDigit_iff_toNat.mp digit
  have low : 48 ≤ c.toNat := low
  have high : c.toNat ≤ 57 := high
  show c.toNat - 48 < 10
  omega

/-- The number of a digit has that digit. -/
lemma digitChar_toNat_sub (digit : c.isDigit = true) : (c.toNat - '0'.toNat).digitChar = c := by
  have all : "0123456789".toList.all (fun c => (c.toNat - '0'.toNat).digitChar == c) = true := by
    decide
  exact beq_iff_eq.mp (List.all_eq_true.mp all c (isDigit_iff_mem.mp digit))

namespace IsLeading

/-- Digits without leading zeros are digits. -/
lemma isDigit_of_mem (leading : IsLeading cs) : ∀ c ∈ cs, c.isDigit = true :=
  (isDigits_iff.mp leading.digits).2

/-- The digits of the number of a run without leading zeros are those of the run. -/
lemma digits_value (leading : IsLeading cs) :
    Nat.digits 10 (value cs) = cs.reverse.map fun c => c.toNat - '0'.toNat := by
  have digit := leading.isDigit_of_mem
  obtain ⟨c, cs, rfl⟩ := List.exists_cons_of_ne_nil (isDigits_iff.mp leading.digits).1
  rw [value]
  refine Nat.digits_ofDigits 10 (by decide) _ ?_ ?_
  · intro d hd
    obtain ⟨c', hc, rfl⟩ := List.mem_map.mp hd
    exact toNat_sub_lt (digit c' (List.mem_reverse.mp hc))
  · intro ne
    rw [List.getLast_map, List.getLast_reverse, List.head_cons]
    intro zero
    refine leading.head (congrArg some ?_)
    rw [← digitChar_toNat_sub (digit c List.mem_cons_self), zero]
    rfl

/-- A run without leading zeros is determined by its number. -/
lemma eq_digits (leading : IsLeading cs) :
    cs = ((Nat.digits 10 (value cs)).map Nat.digitChar).reverse := by
  have chars : cs.map (Nat.digitChar ∘ fun c => c.toNat - '0'.toNat) = cs.map id :=
    List.map_congr_left fun c hc => digitChar_toNat_sub (leading.isDigit_of_mem c hc)
  rw [leading.digits_value, List.map_map, ← List.map_reverse, List.reverse_reverse, chars,
    List.map_id]

/-- Digits without leading zeros stand for a positive number. -/
lemma value_pos (leading : IsLeading cs) : 0 < value cs := by
  refine Nat.pos_of_ne_zero fun zero => (isDigits_iff.mp leading.digits).1 ?_
  rw [leading.eq_digits, zero]
  rfl

end IsLeading

/-- The digits of a positive number have no leading zeros. -/
lemma isLeading_toDigits (pos : 0 < n) : IsLeading (Nat.toDigits 10 n) := by
  refine ⟨isDigits_toDigits n, ?_⟩
  induction n using Nat.strongRecOn with
  | ind n ih =>
    rcases Nat.lt_or_ge n 10 with one | more
    · rw [Nat.toDigits_of_lt_base one]
      intro zero
      have value := Nat.toNat_digitChar_sub_48_of_lt_ten one
      rw [Option.some.inj zero] at value
      exact absurd value (Nat.ne_of_lt pos)
    · rw [Nat.toDigits_of_base_le (by decide) more,
        List.head?_append_of_ne_nil _ Nat.toDigits_ne_nil]
      exact ih (n / 10) (by omega) (by omega)

/-- Digits without leading zeros are those of the number that they stand for. -/
lemma IsLeading.toDigits_value (leading : IsLeading cs) : Nat.toDigits 10 (value cs) = cs := by
  rw [(isLeading_toDigits leading.value_pos).eq_digits, ← natOfDigits_eq_value (Nat.toDigits 10 _),
    natOfDigits_toDigits, ← leading.eq_digits]

/-- An integer is written canonically. -/
lemma toString_mem_canonical (x : Int) : (toString x).toList ∈ canonical.matches' := by
  rw [mem_canonical, toList_toString]
  rcases Nat.eq_zero_or_pos x.natAbs with zero | pos
  · rw [Int.natAbs_eq_zero.mp zero]
    exact .inl rfl
  · refine .inr ⟨_, isLeading_toDigits pos, ?_⟩
    split
    · exact .inr rfl
    · exact .inl rfl

/-- The text of a number stands for that number. -/
lemma signedValue_toString (x : Int) : signedValue (toString x).toList = x :=
  (readInt?_eq_some_iff.mp (readInt?_toString x)).2

/-- A canonical text is the one that is written for its number. -/
lemma toString_signedValue (h : cs ∈ canonical.matches') :
    (toString (signedValue cs)).toList = cs := by
  rw [toList_toString]
  rcases mem_canonical.mp h with rfl | ⟨digits, leading, rfl | rfl⟩
  · decide
  · rw [signedValue_eq, splitSign_of_isDigits leading.digits, if_neg Bool.false_ne_true,
      if_neg (by omega), Int.natAbs_natCast, leading.toDigits_value]
    rfl
  · have pos := leading.value_pos
    have negative : signedValue ('-' :: digits) = -(value digits : Int) := rfl
    rw [negative, if_pos (by omega), Int.natAbs_neg, Int.natAbs_natCast, leading.toDigits_value]
    rfl

/-- The text of an integer is the one canonical text that stands for it. -/
lemma toList_toString_eq_iff :
    (toString x).toList = cs ↔ cs ∈ canonical.matches' ∧ signedValue cs = x := by
  constructor
  · rintro rfl
    exact ⟨toString_mem_canonical x, signedValue_toString x⟩
  · rintro ⟨h, rfl⟩
    exact toString_signedValue h

end Numeral

/-! ## Integers of a width -/

/-- The text is a signed run of digits, and its number is in the range of the width. -/
def Width.Accepts (w : Width) (s : String) : Prop :=
  s.toList ∈ Numeral.signed.matches' ∧ w.least ≤ Numeral.signedValue s.toList ∧
    Numeral.signedValue s.toList ≤ w.greatest

namespace Operand

open Numeral

variable {w : Width} {s : String} {x : Operand}

/-- What is read as an integer is a signed run of digits that stands for it. -/
lemma read_integer_eq_ok_iff :
    read (.integer w) s = .ok x ↔
      ∃ a : BitVec w.bits, x = ⟨.integer w, a⟩ ∧ s.toList ∈ signed.matches' ∧
        signedValue s.toList = a.toInt := by
  have word : Value.read? (.integer w) s.toList = Word.read? w.bits s.toList := rfl
  constructor
  · intro read
    rw [Operand.read, word] at read
    split at read
    · next a found =>
      cases read
      obtain ⟨y, hy, fits⟩ := Option.bind_eq_some_iff.mp found
      obtain ⟨run, rfl⟩ := readInt?_eq_some_iff.mp hy
      split at fits
      · next range =>
        cases fits
        exact ⟨_, rfl, run, (Word.toInt_ofInt w.bits_pos range.1 range.2).symm⟩
      · cases fits
    · cases read
  · rintro ⟨a, rfl, run, value⟩
    obtain ⟨low, high⟩ := Word.toInt_bounds w.bits_pos a
    have found : Word.read? w.bits s.toList = some a := by
      rw [Word.read?, readInt?_eq_some_iff.mpr ⟨run, value⟩, Option.bind_some, if_pos ⟨low, high⟩,
        BitVec.ofInt_toInt]
    exact Literal.read_of_some (word.trans found)

/-- The text of an integer is the canonical one that stands for it. -/
lemma text_integer_eq_iff {a : BitVec w.bits} {t : String} :
    text ⟨.integer w, a⟩ = t ↔ t.toList ∈ canonical.matches' ∧ signedValue t.toList = a.toInt := by
  rw [← toList_toString_eq_iff, String.toList_inj]
  exact Iff.rfl

/-- A text is read as an integer if the width accepts it. -/
lemma exists_read_integer_iff : (∃ x, read (.integer w) s = .ok x) ↔ w.Accepts s := by
  constructor
  · rintro ⟨x, read⟩
    obtain ⟨a, rfl, run, value⟩ := read_integer_eq_ok_iff.mp read
    obtain ⟨low, high⟩ := Word.toInt_bounds w.bits_pos a
    rw [← value, w.toInt_intMin] at low
    rw [← value, w.toInt_intMax] at high
    exact ⟨run, low, high⟩
  · rintro ⟨run, low, high⟩
    rw [← w.toInt_intMin] at low
    rw [← w.toInt_intMax] at high
    exact ⟨_, read_integer_eq_ok_iff.mpr ⟨_, rfl, run, (Word.toInt_ofInt w.bits_pos low high).symm⟩⟩

/-- Exactly the signed runs of digits whose number is in the range are read as integers of a width.
The integer has this number, and its text is the canonical one. All other texts are refused, and an
operand is read back from its text. -/
theorem read_integer_exactly (w : Width) (s : String) :
    ((∃ x, read (.integer w) s = .ok x) ↔ w.Accepts s) ∧
    (∀ x, read (.integer w) s = .ok x → ∃ a : BitVec w.bits, x = ⟨.integer w, a⟩ ∧
      a.toInt = signedValue s.toList ∧
      ∀ t, x.text = t ↔
      t.toList ∈ canonical.matches' ∧ signedValue t.toList = signedValue s.toList) ∧
    (¬ w.Accepts s → read (.integer w) s = .error (.invalidLiteral (.integer w) s)) ∧
    (∀ a : BitVec w.bits, read (.integer w) (text ⟨.integer w, a⟩) = .ok ⟨.integer w, a⟩) ∧
    (∀ x : Operand, read x.kind x.text = .ok x) := by
  refine ⟨exists_read_integer_iff, ?_, ?_, fun a => read_text ⟨.integer w, a⟩, read_text⟩
  · intro x read
    obtain ⟨a, rfl, -, value⟩ := read_integer_eq_ok_iff.mp read
    rw [value]
    exact ⟨a, rfl, rfl, fun t => text_integer_eq_iff⟩
  · intro refused
    cases found : Value.read? (.integer w) s.toList with
    | some a => exact absurd (exists_read_integer_iff.mp ⟨_, Literal.read_of_some found⟩) refused
    | none => exact Literal.read_of_none found

/-- The least `int8` behind zeros, and one more than the greatest behind a plus sign. -/
theorem read_integer_exactly_at_limits :
    Width.w8.Accepts "-000128" ∧ read .int8 "-000128" = .ok ⟨.int8, -128#8⟩ ∧
      text ⟨.int8, -128#8⟩ = "-128" ∧
    ¬ Width.w8.Accepts "+0128" ∧ read .int8 "+0128" = .error (.invalidLiteral .int8 "+0128") := by
  have least : signedValue "-000128".toList = -128 := by decide +kernel
  have beyond : signedValue "+0128".toList = 128 := by decide +kernel
  have accepted : Width.w8.Accepts "-000128" := by
    refine ⟨mem_signed.mpr rfl, ?_⟩
    rw [least]
    decide
  have refused : ¬ Width.w8.Accepts "+0128" := by
    rintro ⟨-, -, high⟩
    rw [beyond] at high
    exact absurd high (by decide)
  obtain ⟨accepts, reads, -⟩ := read_integer_exactly .w8 "-000128"
  obtain ⟨-, -, refuses, -⟩ := read_integer_exactly .w8 "+0128"
  obtain ⟨x, read⟩ := accepts.mpr accepted
  obtain ⟨a, rfl, value, text⟩ := reads x read
  obtain rfl : a = -128#8 := BitVec.eq_of_toInt_eq (value.trans least)
  have canonical : "-128".toList ∈ canonical.matches' :=
    mem_canonical.mpr (.inr ⟨"128".toList, ⟨rfl, by decide⟩, .inr rfl⟩)
  refine ⟨accepted, read, (text "-128").mpr ⟨canonical, ?_⟩, refused, refuses refused⟩
  rw [least]
  decide +kernel

end Operand

end TypedStack
