import Mathlib.Computability.RegularExpressions
import Mathlib.Data.Nat.Digits.Defs
import TypedStack.Proofs.Integers
import TypedStack.Proofs.ReadBack
import TypedStack.Proofs.Written

/-!
# The grammar of written values

A value is written as the name of its kind and, in parentheses, a text that matches a regular
expression. Reading accepts exactly the words of this form whose number the kind can hold, and tells
the two reasons for refusing a word apart. What stands in parentheses is always read as a number of
the kind, integers outside the range excepted.
-/

namespace TypedStack

namespace Numeral

open RegularExpression in
/-- One of the characters. -/
def oneOf : List Char → RegularExpression Char
  | [] => 0
  | c :: cs => char c + oneOf cs

/-- The regular expression `[0-9]+`. -/
def run : RegularExpression Char := oneOf "0123456789".toList * (oneOf "0123456789".toList).star

/-- The number of a run of digits by the places of the digits, of which the last counts ones. -/
def value (cs : List Char) : Nat := Nat.ofDigits 10 (cs.reverse.map fun c => c.toNat - '0'.toNat)

/-- The number of a run of digits behind an optional sign. -/
def signedValue : List Char → Int
  | '-' :: cs => -value cs
  | '+' :: cs => value cs
  | cs => value cs

/-- Whether a minus stands before a number. -/
def isNegative (cs : List Char) : Bool := cs.head? == some '-'

/-- A number without the minus before it. -/
def unsigned : List Char → List Char
  | '-' :: cs => cs
  | cs => cs

/-- The digits before the point. -/
def wholePart (cs : List Char) : List Char := cs.takeWhile (· != '.')

/-- The digits behind the point; there are none without a point. -/
def fractionPart (cs : List Char) : List Char := (cs.dropWhile (· != '.')).tail

variable {c : Char} {cs w : List Char}

/-- One of some characters is matched by each of them. -/
lemma mem_oneOf : w ∈ (oneOf cs).matches' ↔ ∃ c ∈ cs, w = [c] := by
  induction cs with
  | nil => simp [oneOf]
  | cons c cs ih =>
    have first : w ∈ (RegularExpression.char c).matches' ↔ w = [c] := Iff.rfl
    rw [oneOf, RegularExpression.matches'_add, Language.mem_add, ih, first]
    simp

/-- There are ten digits. -/
lemma isDigit_iff_mem : c.isDigit = true ↔ c ∈ "0123456789".toList := by
  constructor
  · intro digit
    obtain ⟨low, high⟩ := Char.isDigit_iff_toNat.mp digit
    have low : 48 ≤ c.toNat := low
    have high : c.toNat ≤ 57 := high
    rw [← Char.ofNat_toNat c]
    generalize c.toNat = n at low high
    obtain ⟨m, rfl⟩ := Nat.exists_eq_add_of_le low
    have small : m < 10 := by omega
    clear low high
    revert m
    decide
  · intro mem
    have all : "0123456789".toList.all Char.isDigit = true := by decide
    exact List.all_eq_true.mp all c mem

/-- A run of digits is not empty and has only digits. -/
lemma isDigits_iff : isDigits cs = true ↔ cs ≠ [] ∧ ∀ c ∈ cs, c.isDigit = true := by
  simp [isDigits]

/-- Any number of some characters is matched by words over them. -/
lemma mem_star_oneOf : w ∈ (oneOf cs).star.matches' ↔ ∀ c ∈ w, c ∈ cs := by
  rw [RegularExpression.matches'_star, Language.mem_kstar]
  constructor
  · rintro ⟨parts, rfl, all⟩ c hc
    obtain ⟨part, hpart, hc⟩ := List.mem_flatten.mp hc
    obtain ⟨d, hd, rfl⟩ := mem_oneOf.mp (all part hpart)
    rw [List.mem_singleton.mp hc]
    exact hd
  · intro all
    refine ⟨w.map fun d => [d], (List.flatMap_singleton' w).symm, fun part hpart => ?_⟩
    obtain ⟨d, hd, rfl⟩ := List.mem_map.mp hpart
    exact mem_oneOf.mpr ⟨d, all d hd, rfl⟩

/-- A character out of some, and then characters out of some, as many as there are. -/
lemma mem_oneOf_mul_star {first rest : List Char} :
    w ∈ (oneOf first * (oneOf rest).star).matches' ↔
      ∃ c ∈ first, ∃ cs, (∀ d ∈ cs, d ∈ rest) ∧ w = c :: cs := by
  rw [RegularExpression.matches'_mul, Language.mem_mul]
  constructor
  · rintro ⟨_, front, cs, back, rfl⟩
    obtain ⟨c, hc, rfl⟩ := mem_oneOf.mp front
    exact ⟨c, hc, cs, mem_star_oneOf.mp back, rfl⟩
  · rintro ⟨c, hc, cs, back, rfl⟩
    exact ⟨[c], mem_oneOf.mpr ⟨c, hc, rfl⟩, cs, mem_star_oneOf.mpr back, rfl⟩

/-- The expression for runs of digits matches these. -/
lemma mem_run : w ∈ run.matches' ↔ isDigits w = true := by
  rw [run, mem_oneOf_mul_star, isDigits_iff]
  simp only [← isDigit_iff_mem]
  constructor
  · rintro ⟨c, first, cs, rest, rfl⟩
    exact ⟨List.cons_ne_nil c cs, List.forall_mem_cons.mpr ⟨first, rest⟩⟩
  · rintro ⟨ne, digits⟩
    obtain ⟨c, cs, rfl⟩ := List.exists_cons_of_ne_nil ne
    obtain ⟨first, rest⟩ := List.forall_mem_cons.mp digits
    exact ⟨c, first, cs, rest, rfl⟩

/-- Reading a run from the front gives the number that the places of its digits make. -/
lemma natOfDigits_eq_value (cs : List Char) : natOfDigits cs = value cs := by
  -- from the back, because the last digit is the one that counts itself
  induction cs using List.reverseRecOn with
  | nil => rfl
  | append_singleton cs c ih =>
    have place : natOfDigits (cs ++ [c]) = 10 * natOfDigits cs + (c.toNat - '0'.toNat) := by
      rw [natOfDigits, Nat.ofDigitChars_append]
      rfl
    have places : (cs ++ [c]).reverse = c :: cs.reverse := List.reverse_concat
    rw [place, ih, value, value, places, List.map_cons, Nat.ofDigits_cons, Nat.add_comm]

/-- A run of digits does not begin with a sign. -/
lemma exists_cons_of_isDigits (digits : isDigits cs = true) :
    ∃ c rest, cs = c :: rest ∧ c ≠ '-' ∧ c ≠ '+' := by
  obtain ⟨ne, all⟩ := isDigits_iff.mp digits
  obtain ⟨c, rest, rfl⟩ := List.exists_cons_of_ne_nil ne
  have digit := all c List.mem_cons_self
  refine ⟨c, rest, rfl, ?_, ?_⟩
  · rintro rfl
    cases digit
  · rintro rfl
    cases digit

/-- A run of digits has no sign. -/
lemma splitSign_of_isDigits (digits : isDigits cs = true) : splitSign cs = (false, cs) := by
  obtain ⟨c, rest, rfl, minus, plus⟩ := exists_cons_of_isDigits digits
  exact splitSign_of_unsigned minus plus

section
variable {sign digits : List Char} (hsign : sign = [] ∨ sign = ['-'])
  (run : isDigits digits = true) (rest : List Char)
include hsign run

/-- Behind the sign are the digits and what follows them. -/
lemma unsigned_append : unsigned (sign ++ (digits ++ rest)) = digits ++ rest := by
  obtain ⟨c, cs, rfl, minus, -⟩ := exists_cons_of_isDigits run
  rcases hsign with rfl | rfl
  · refine unsigned.eq_2 _ ?_
    rintro _ ⟨⟩
    exact minus rfl
  · rfl

/-- If the only sign is a minus, it is the one that reading takes off. -/
lemma splitSign_append :
    splitSign (sign ++ (digits ++ rest)) =
      (isNegative (sign ++ (digits ++ rest)), digits ++ rest) := by
  obtain ⟨c, cs, rfl, minus, plus⟩ := exists_cons_of_isDigits run
  rcases hsign with rfl | rfl
  · have none : isNegative (c :: (cs ++ rest)) = false :=
      beq_false_of_ne fun h => minus (Option.some.inj h)
    show splitSign (c :: (cs ++ rest)) = (isNegative (c :: (cs ++ rest)), c :: (cs ++ rest))
    rw [none, splitSign_of_unsigned minus plus]
  · rfl

end

section
variable {digits digits' : List Char} (run : isDigits digits = true)
include run

/-- No digit is a point. -/
lemma ne_point_of_isDigits : ∀ c ∈ digits, (c != '.') = true := by
  intro c hc
  refine bne_iff_ne.mpr ?_
  rintro rfl
  cases (isDigits_iff.mp run).2 '.' hc

/-- Without a point, all digits are before it. -/
lemma takeWhile_of_isDigits : digits.takeWhile (· != '.') = digits :=
  List.takeWhile_eq_self_iff.mpr (ne_point_of_isDigits run)

/-- Without a point, nothing is behind it. -/
lemma dropWhile_of_isDigits : digits.dropWhile (· != '.') = [] :=
  List.dropWhile_eq_nil_iff.mpr (ne_point_of_isDigits run)

/-- The digits before a point are taken. -/
lemma takeWhile_of_point : (digits ++ '.' :: digits').takeWhile (· != '.') = digits := by
  rw [List.takeWhile_append_of_pos (ne_point_of_isDigits run)]
  exact List.append_nil digits

/-- The point and the digits behind it are left. -/
lemma dropWhile_of_point : (digits ++ '.' :: digits').dropWhile (· != '.') = '.' :: digits' :=
  List.dropWhile_append_of_pos (ne_point_of_isDigits run)

end

/-- The number of a text by its sign and what stands behind it. -/
lemma signedValue_eq (cs : List Char) :
    signedValue cs = if (splitSign cs).1 then -(value (splitSign cs).2 : Int)
      else value (splitSign cs).2 := by
  fun_cases splitSign cs with
  | case1 cs => rfl
  | case2 cs => rfl
  | case3 _ minus plus => rw [signedValue.eq_3 cs minus plus, if_neg Bool.false_ne_true]

/-- Digits behind an optional sign are read as their number, and nothing else is read. -/
lemma readInt?_eq (cs : List Char) :
    readInt? cs = if isDigits (splitSign cs).2 then some (signedValue cs) else none := by
  rw [signedValue_eq]
  cases digits : isDigits (splitSign cs).2 with
  | true => simp [readInt?, readNat?, digits, natOfDigits_eq_value]
  | false => simp [readInt?, readNat?, digits]

end Numeral

/-! ## Forms of numbers -/

namespace Literal

open RegularExpression in
/-- How the numbers of a kind are written: `-?[0-9]+`, and `-?[0-9]+(.[0-9]+)?` if the kind has
fractions. -/
def form : Kind → RegularExpression Char
  | .integer _ => (1 + char '-') * Numeral.run
  | .floating _ => (1 + char '-') * (Numeral.run * (1 + char '.' * Numeral.run))

/-- The parts of a number: an optional minus, digits and, if the kind has fractions, perhaps a point
and more digits. -/
inductive Parts (k : Kind) : List Char → Prop where
  | whole {sign digits : List Char} :
    sign = [] ∨ sign = ['-'] → Numeral.isDigits digits = true → Parts k (sign ++ digits)
  | fraction {sign digits digits' : List Char} :
    sign = [] ∨ sign = ['-'] → k.isInteger = false → Numeral.isDigits digits = true →
      Numeral.isDigits digits' = true →
    Parts k (sign ++ (digits ++ '.' :: digits'))

variable {k : Kind} {cs : List Char}

/-- A minus may be there or not. -/
lemma mem_optional_minus :
    cs ∈ (1 + RegularExpression.char '-' : RegularExpression Char).matches' ↔
      cs = [] ∨ cs = ['-'] := by
  rw [RegularExpression.matches'_add, Language.mem_add]
  exact Iff.rfl

/-- A fraction may be there or not. -/
lemma mem_optional_fraction :
    cs ∈ (1 + RegularExpression.char '.' * Numeral.run : RegularExpression Char).matches' ↔
      cs = [] ∨ ∃ digits, Numeral.isDigits digits = true ∧ cs = '.' :: digits := by
  rw [RegularExpression.matches'_add, Language.mem_add, RegularExpression.matches'_mul,
    Language.mem_mul]
  refine or_congr Iff.rfl ⟨?_, ?_⟩
  · rintro ⟨_, point, digits, run, rfl⟩
    cases point
    exact ⟨digits, Numeral.mem_run.mp run, rfl⟩
  · rintro ⟨digits, run, rfl⟩
    exact ⟨['.'], rfl, digits, Numeral.mem_run.mpr run, rfl⟩

/-- The texts of the form of a kind are those with the parts of a number. -/
lemma mem_form_iff : cs ∈ (form k).matches' ↔ Parts k cs := by
  cases k with
  | integer w =>
    rw [form, RegularExpression.matches'_mul, Language.mem_mul]
    constructor
    · rintro ⟨sign, hsign, digits, run, rfl⟩
      exact .whole (mem_optional_minus.mp hsign) (Numeral.mem_run.mp run)
    · rintro (⟨hsign, run⟩ | ⟨-, ⟨⟩, -⟩)
      exact ⟨_, mem_optional_minus.mpr hsign, _, Numeral.mem_run.mpr run, rfl⟩
  | floating p =>
    rw [form, RegularExpression.matches'_mul, Language.mem_mul]
    constructor
    · rintro ⟨sign, hsign, _, magnitude, rfl⟩
      rw [RegularExpression.matches'_mul] at magnitude
      obtain ⟨digits, run, _, rest, rfl⟩ := Language.mem_mul.mp magnitude
      rcases mem_optional_fraction.mp rest with rfl | ⟨digits', run', rfl⟩
      · rw [List.append_nil]
        exact .whole (mem_optional_minus.mp hsign) (Numeral.mem_run.mp run)
      · exact .fraction (mem_optional_minus.mp hsign) rfl (Numeral.mem_run.mp run) run'
    · intro parts
      cases parts with
      | @whole sign digits hsign run =>
        refine ⟨sign, mem_optional_minus.mpr hsign, digits, ?_, rfl⟩
        rw [RegularExpression.matches'_mul, Language.mem_mul]
        exact ⟨digits, Numeral.mem_run.mpr run, [], mem_optional_fraction.mpr (.inl rfl),
          List.append_nil digits⟩
      | @fraction sign digits digits' hsign _ run run' =>
        refine ⟨sign, mem_optional_minus.mpr hsign, _, ?_, rfl⟩
        rw [RegularExpression.matches'_mul, Language.mem_mul]
        exact ⟨digits, Numeral.mem_run.mpr run, _,
          mem_optional_fraction.mpr (.inr ⟨digits', run', rfl⟩), rfl⟩

/-! ## Recognising forms -/

/-- What is accepted has the parts of the form. -/
lemma parts_of_isWritten (written : isWritten k cs = true) : Parts k cs := by
  obtain ⟨sign, magnitude, hsign, rfl, unsigned⟩ := exists_isUnsigned written
  obtain ⟨digits, run, rfl | ⟨hk, digits', run', rfl⟩⟩ := isUnsigned_shape unsigned
  · exact .whole hsign run
  · exact .fraction hsign hk run run'

/-- A run of digits is accepted behind the sign. -/
lemma isUnsigned_of_isDigits (run : Numeral.isDigits cs = true) : isUnsigned k cs = true := by
  rw [isUnsigned, Numeral.dropWhile_of_isDigits run, Numeral.takeWhile_of_isDigits run]
  exact run

/-- A fraction is accepted for the floating-point kinds. -/
lemma isUnsigned_of_fraction {digits digits' : List Char} (hk : k.isInteger = false)
    (run : Numeral.isDigits digits = true) (run' : Numeral.isDigits digits' = true) :
    isUnsigned k (digits ++ '.' :: digits') = true := by
  rw [isUnsigned, Numeral.dropWhile_of_point run, Numeral.takeWhile_of_point run]
  simp [hk, run, run']

/-- One minus may stand before digits without a sign. -/
lemma isWritten_of_isUnsigned {sign digits rest : List Char} (hsign : sign = [] ∨ sign = ['-'])
    (run : Numeral.isDigits digits = true) (unsigned : isUnsigned k (digits ++ rest) = true) :
    isWritten k (sign ++ (digits ++ rest)) = true := by
  rcases hsign with rfl | rfl
  · obtain ⟨c, cs, rfl, minus, -⟩ := Numeral.exists_cons_of_isDigits run
    unfold isWritten
    split
    · next eq => exact absurd (List.cons.inj eq).1 minus
    · exact unsigned
  · exact unsigned

/-- What is accepted is what the regular expression matches. -/
lemma isWritten_iff : isWritten k cs = true ↔ cs ∈ (form k).matches' := by
  rw [mem_form_iff]
  refine ⟨parts_of_isWritten, fun parts => ?_⟩
  cases parts with
  | @whole sign digits hsign run =>
    -- nothing stands behind the digits
    have unsigned : isUnsigned k (digits ++ []) = true := by
      rw [List.append_nil]
      exact isUnsigned_of_isDigits run
    have written := isWritten_of_isUnsigned hsign run unsigned
    rw [List.append_nil] at written
    exact written
  | fraction hsign hk run run' =>
    exact isWritten_of_isUnsigned hsign run (isUnsigned_of_fraction hk run run')

/-! ## Reading forms -/

section
open Numeral

/-- The sign of a number is a minus or none. -/
lemma Parts.splitSign_eq (parts : Parts k cs) : splitSign cs = (isNegative cs, unsigned cs) := by
  cases parts with
  | whole hsign run =>
    have split := splitSign_append hsign run []
    have magnitude := unsigned_append hsign run []
    rw [List.append_nil] at split magnitude
    rw [split, magnitude]
  | fraction hsign _ run _ => rw [splitSign_append hsign run, unsigned_append hsign run]

/-- Behind its sign, a number is a decimal that has the digits on both sides of the point. -/
lemma Parts.read?_unsigned (parts : Parts k cs) :
    Decimal.read? (unsigned cs) =
      some ⟨natOfDigits (wholePart (unsigned cs) ++ fractionPart (unsigned cs)),
        -(fractionPart (unsigned cs)).length⟩ := by
  cases parts with
  | @whole sign digits hsign run =>
    obtain ⟨ne, all⟩ := isDigits_iff.mp run
    have magnitude := unsigned_append hsign run []
    have read : Decimal.read? (digits ++ []) = some ⟨natOfDigits digits, 0⟩ :=
      Decimal.read?_of_digits all ne nofun
    rw [List.append_nil] at magnitude read
    rw [magnitude, wholePart, fractionPart, takeWhile_of_isDigits run, dropWhile_of_isDigits run,
      List.tail_nil, List.append_nil]
    exact read
  | @fraction sign digits digits' hsign hk run run' =>
    obtain ⟨ne, all⟩ := isDigits_iff.mp run
    have all' := (isDigits_iff.mp run').2
    rw [unsigned_append hsign run, wholePart, fractionPart, takeWhile_of_point run,
      dropWhile_of_point run, List.tail_cons]
    exact Decimal.read?_point digits digits' (List.forall_mem_append.mpr ⟨all, all'⟩) ne

end

/-- A number that is read is an operand. -/
lemma read_of_some {text : String} {x : Value k} (read : Value.read? k text.toList = some x) :
    Operand.read k text = .ok ⟨k, x⟩ := by
  rw [Operand.read, read]

/-- What is no number is an invalid literal. -/
lemma read_of_none {text : String} (read : Value.read? k text.toList = none) :
    Operand.read k text = .error (.invalidLiteral k text) := by
  rw [Operand.read, read]

/-- A text of the form of a floating-point kind is always read as a number, by rounding the decimal
that it is. -/
lemma Parts.read_floating {p : Precision} {text : String}
    (parts : Parts (.floating p) text.toList) :
    ∃ d, Decimal.read? (Numeral.unsigned text.toList) = some d ∧
      Operand.read (.floating p) text =
        .ok ⟨.floating p, Binary.ofDecimal p.format (Numeral.isNegative text.toList) d⟩ := by
  have read := parts.read?_unsigned
  refine ⟨_, read, read_of_some ?_⟩
  show Binary.read? p.format text.toList = _
  rw [Binary.read?, parts.splitSign_eq]
  exact Binary.readMagnitude?_of_read? read

/-- The kind can hold the number: it is in the range of an integer kind, or it is read as a finite
number of a floating-point kind. -/
def CanBeHeld : Literal → Prop
  | ⟨.integer w, text⟩ =>
    w.least ≤ Numeral.signedValue text.toList ∧ Numeral.signedValue text.toList ≤ w.greatest
  | ⟨.floating p, text⟩ => ∃ x, Operand.read (.floating p) text = .ok x ∧ x.isFinite = true

/-- A text of the form of an integer kind is read as the number that it stands for. -/
lemma readInt?_of_parts {w : Width} (parts : Parts (.integer w) cs) :
    Numeral.readInt? cs = some (Numeral.signedValue cs) := by
  rw [Numeral.readInt?_eq]
  cases parts with
  | whole hsign run =>
    refine if_pos ?_
    rcases hsign with rfl | rfl
    · rw [List.nil_append, Numeral.splitSign_of_isDigits run]
      exact run
    · exact run
  | fraction _ hk => cases hk

/-- A text of the form of an integer kind is read as a number if the range has room for it, and only
then. -/
lemma read_integer {w : Width} {text : String} (parts : Parts (.integer w) text.toList) :
    (CanBeHeld ⟨.integer w, text⟩ ∧ ∃ a : Value (.integer w), Operand.read (.integer w) text =
      .ok ⟨.integer w, a⟩) ∨
      (¬ CanBeHeld ⟨.integer w, text⟩ ∧ ∃ e, Operand.read (.integer w) text = .error e) := by
  have value : Value.read? (.integer w) text.toList = Word.read? w.bits text.toList := rfl
  rw [Word.read?, readInt?_of_parts parts, Option.bind_some, w.toInt_intMin,
    w.toInt_intMax] at value
  split at value
  · next held => exact .inl ⟨held, _, read_of_some value⟩
  · next outside => exact .inr ⟨outside, _, read_of_none value⟩

/-- A text of the form of its kind is no number if it is an integer outside the range, and only
then. -/
lemma read_error_iff_of_form {text : String} (formed : text.toList ∈ (form k).matches') :
    (∃ e, Operand.read k text = .error e) ↔
      ∃ w, k = .integer w ∧ ¬ CanBeHeld ⟨.integer w, text⟩ := by
  have parts := mem_form_iff.mp formed
  cases k with
  | integer w =>
    rcases read_integer parts with ⟨held, a, read⟩ | ⟨outside, failed⟩
    · refine iff_of_false ?_ ?_
      · rintro ⟨e, failed⟩
        cases read.symm.trans failed
      · rintro ⟨_, ⟨⟩, outside⟩
        exact outside held
    · exact iff_of_true failed ⟨w, rfl, outside⟩
  | floating p =>
    obtain ⟨d, -, read⟩ := parts.read_floating
    refine iff_of_false ?_ ?_
    · rintro ⟨e, failed⟩
      cases read.symm.trans failed
    · rintro ⟨_, ⟨⟩, -⟩

/-! ## Reading words -/

/-- The word is the name of the kind with the text in parentheses, and the text has the form of the
kind. -/
def IsWordOf (l : Literal) (word : String) : Prop :=
  word = l.kind.name ++ "(" ++ l.text ++ ")" ∧ l.text.toList ∈ (form l.kind).matches'

variable {l l' : Literal} {word : String}

/-- A word is split into a literal if it is the word of that literal. -/
lemma ofWord?_eq_some_iff_isWordOf : ofWord? word = some l ↔ l.IsWordOf word := by
  rw [ofWord?_eq_some_iff, isWritten_iff]
  exact Iff.rfl

/-- A word is written in one way only. -/
lemma IsWordOf.unique (h : l.IsWordOf word) (h' : l'.IsWordOf word) : l = l' := by
  have read := ofWord?_eq_some_iff_isWordOf.mpr h
  rw [ofWord?_eq_some_iff_isWordOf.mpr h'] at read
  exact (Option.some.inj read).symm

/-- A literal that can be read fits if its number is finite. -/
lemma fits_of_ok {x : Operand} (read : l.operand = .ok x) : l.fits = x.isFinite := by
  rw [fits, read]

/-- A literal that cannot be read does not fit. -/
lemma fits_of_error {e : Error} (read : l.operand = .error e) : l.fits = false := by
  rw [fits, read]

/-- A literal of the form fits if its number can be held. -/
lemma fits_iff_canBeHeld (formed : l.text.toList ∈ (form l.kind).matches') :
    l.fits = true ↔ l.CanBeHeld := by
  obtain ⟨k, text⟩ := l
  have parts : Parts k text.toList := mem_form_iff.mp formed
  cases k with
  | integer w =>
    rcases read_integer parts with ⟨held, a, read⟩ | ⟨outside, e, failed⟩
    · rw [fits_of_ok (l := ⟨.integer w, text⟩) read]
      exact iff_of_true rfl held
    · rw [fits_of_error (l := ⟨.integer w, text⟩) failed]
      exact iff_of_false nofun outside
  | floating p =>
    obtain ⟨d, -, read⟩ := parts.read_floating
    rw [fits_of_ok (l := ⟨.floating p, text⟩) read]
    constructor
    · intro finite
      exact ⟨_, read, finite⟩
    · rintro ⟨x', read', finite⟩
      cases read.symm.trans read'
      exact finite

/-- The word of a literal is accepted if it fits. -/
lemma parse_of_isWordOf (h : l.IsWordOf word) :
    parse word = if l.fits then .ok l else .error (.literalOutOfRange l.kind l.text) := by
  rw [parse, ofWord?_eq_some_iff_isWordOf.mpr h]

/-- The word of no literal is malformed. -/
lemma parse_of_not_isWordOf (h : ∀ l : Literal, ¬ l.IsWordOf word) :
    parse word = .error (.malformedValue word) := by
  have none : ofWord? word = none := by
    rw [Option.eq_none_iff_forall_ne_some]
    exact fun l read => h l (ofWord?_eq_some_iff_isWordOf.mp read)
  rw [parse, none]

/-- Every word is read in one of three ways. -/
inductive Reading (word : String) : Except Error Literal → Prop where
  | held {l : Literal} : l.IsWordOf word → l.CanBeHeld → Reading word (.ok l)
  | outside {l : Literal} :
    l.IsWordOf word → ¬ l.CanBeHeld → Reading word (.error (.literalOutOfRange l.kind l.text))
  | malformed : (∀ l : Literal, ¬ l.IsWordOf word) → Reading word (.error (.malformedValue word))

/-- Every word is read by the rules. -/
lemma reading (word : String) : Reading word (parse word) := by
  by_cases formed : ∃ l : Literal, l.IsWordOf word
  · obtain ⟨l, h⟩ := formed
    have fits := fits_iff_canBeHeld h.2
    rw [parse_of_isWordOf h]
    split
    · next held => exact .held h (fits.mp held)
    · next outside => exact .outside h fun held => outside (fits.mpr held)
  · have none := not_exists.mp formed
    rw [parse_of_not_isWordOf none]
    exact .malformed none

namespace Reading

variable {result : Except Error Literal}

/-- By the rules, a literal is accepted if the word is its own and its number can be held. -/
lemma ok_iff (reads : Reading word result) : result = .ok l ↔ l.IsWordOf word ∧ l.CanBeHeld := by
  cases reads with
  | held h held =>
    constructor
    · rintro ⟨⟩
      exact ⟨h, held⟩
    · rintro ⟨h', -⟩
      rw [h.unique h']
  | outside h outside =>
    refine iff_of_false nofun ?_
    rintro ⟨h', held⟩
    rw [h.unique h'] at outside
    exact outside held
  | malformed none => exact iff_of_false nofun fun h => none l h.1

/-- By the rules, a literal is out of range if its number cannot be held. -/
lemma outOfRange_iff {text : String} (reads : Reading word result) :
    result = .error (.literalOutOfRange k text) ↔
      IsWordOf ⟨k, text⟩ word ∧ ¬ CanBeHeld ⟨k, text⟩ := by
  cases reads with
  | held h held =>
    refine iff_of_false nofun ?_
    rintro ⟨h', outside⟩
    rw [h.unique h'] at held
    exact outside held
  | outside h outside =>
    constructor
    · rintro ⟨⟩
      exact ⟨h, outside⟩
    · rintro ⟨h', -⟩
      rw [h.unique h']
  | malformed none => exact iff_of_false nofun fun h => none _ h.1

/-- By the rules, a word is malformed if it is that of no literal. -/
lemma malformed_iff (reads : Reading word result) :
    result = .error (.malformedValue word) ↔ ∀ l : Literal, ¬ l.IsWordOf word := by
  cases reads with
  | held h _ | outside h _ => exact iff_of_false nofun fun none => none _ h
  | malformed none => exact iff_of_true rfl none

end Reading

/-- Reading accepts exactly the words of the form `kind(number)` whose kind can hold the number. The
other words of this form are out of range, and all other words are malformed. A word has this form
in one way only, and a number of the right form can only fail to be read if it is an integer that is
out of range. -/
theorem parse_accepts_exactly (word : String) :
    (∀ l, parse word = .ok l ↔ l.IsWordOf word ∧ l.CanBeHeld) ∧
    (∀ k text, parse word = .error (.literalOutOfRange k text) ↔
      IsWordOf ⟨k, text⟩ word ∧ ¬ CanBeHeld ⟨k, text⟩) ∧
    (parse word = .error (.malformedValue word) ↔ ∀ l : Literal, ¬ l.IsWordOf word) ∧
    (∀ l l' : Literal, l.IsWordOf word → l'.IsWordOf word → l = l') ∧
    (∀ k text, text.toList ∈ (form k).matches' →
      ((∃ e, Operand.read k text = .error e) ↔
        ∃ w, k = .integer w ∧ ¬ CanBeHeld ⟨.integer w, text⟩)) := by
  have reads := reading word
  exact ⟨fun l => reads.ok_iff, fun k text => reads.outOfRange_iff, reads.malformed_iff,
    fun l l' => IsWordOf.unique, fun k text => read_error_iff_of_form⟩

/-- The least `int8` behind zeros, one less than it, and a fraction. -/
theorem parse_accepts_exactly_at_least :
    parse "int8(-000128)" = .ok ⟨.int8, "-000128"⟩ ∧
    parse "int8(-000129)" = .error (.literalOutOfRange .int8 "-000129") ∧
    "-000129".toList ∈ (form .int8).matches' ∧ (∃ e, Operand.read .int8 "-000129" = .error e) ∧
    "-0.5".toList ∈ (form .float).matches' ∧ ¬ ∃ e, Operand.read .float "-0.5" = .error e := by
  have least : Parts .int8 (['-'] ++ "000128".toList) := .whole (.inr rfl) rfl
  have less : Parts .int8 (['-'] ++ "000129".toList) := .whole (.inr rfl) rfl
  have half : Parts .float (['-'] ++ (['0'] ++ '.' :: ['5'])) := .fraction (.inr rfl) rfl rfl rfl
  have least : "-000128".toList ∈ (form .int8).matches' := mem_form_iff.mpr least
  have less : "-000129".toList ∈ (form .int8).matches' := mem_form_iff.mpr less
  have half : "-0.5".toList ∈ (form .float).matches' := mem_form_iff.mpr half
  have held : CanBeHeld ⟨.int8, "-000128"⟩ := by
    have value : Numeral.signedValue "-000128".toList = -128 := by decide +kernel
    rw [CanBeHeld, value]
    decide
  have outside : ¬ CanBeHeld ⟨.int8, "-000129"⟩ := by
    have value : Numeral.signedValue "-000129".toList = -129 := by decide +kernel
    rw [CanBeHeld, value]
    decide
  obtain ⟨accepts, -⟩ := parse_accepts_exactly "int8(-000128)"
  obtain ⟨-, refuses, -, -, reads⟩ := parse_accepts_exactly "int8(-000129)"
  refine ⟨(accepts _).mpr ⟨⟨rfl, least⟩, held⟩, (refuses _ _).mpr ⟨⟨rfl, less⟩, outside⟩, less, ?_,
    half, ?_⟩
  · exact (reads _ _ less).mpr ⟨_, rfl, outside⟩
  · intro failed
    obtain ⟨_, ⟨⟩, -⟩ := (reads _ _ half).mp failed

end Literal

end TypedStack
