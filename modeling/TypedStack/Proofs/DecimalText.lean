import Mathlib.Tactic.Lemma
import TypedStack.Decimal.Layout

/-!
# Texts of decimal numbers

A decimal that is laid out as text is read as the same number again. Apart from numbers with zeros
written out before the point, it is even read as the same digits and exponent.
-/

namespace TypedStack

namespace Numeral

variable {cs : List Char}

/-- The digits of a number are digits. -/
lemma isDigit_of_mem_toDigits {n : Nat} : ∀ c ∈ Nat.toDigits 10 n, c.isDigit = true :=
  fun _ hc => Nat.isDigit_of_mem_toDigits (by decide) (by decide) hc

/-- The digits of a number are a run of digits. -/
lemma isDigits_toDigits (n : Nat) : isDigits (Nat.toDigits 10 n) = true := by
  rw [isDigits, Bool.and_eq_true, List.all_eq_true]
  refine ⟨?_, isDigit_of_mem_toDigits⟩
  rw [Bool.not_eq_true', List.isEmpty_eq_false_iff]
  exact Nat.toDigits_ne_nil

/-- Zeros are digits. -/
lemma isDigit_of_mem_zeros {n : Nat} : ∀ c ∈ List.replicate n '0', c.isDigit = true := by
  intro c hc
  rw [List.eq_of_mem_replicate hc]
  rfl

/-- Leading zeros do not count. -/
lemma natOfDigits_zeros_append (n : Nat) (cs : List Char) :
    natOfDigits (List.replicate n '0' ++ cs) = natOfDigits cs := by
  rw [natOfDigits, Nat.ofDigitChars_append, Nat.ofDigitChars_replicate_zero]
  rfl

/-- Zeros behind count as powers of ten. -/
lemma natOfDigits_append_zeros (cs : List Char) (n : Nat) :
    natOfDigits (cs ++ List.replicate n '0') = natOfDigits cs * Nat.pow 10 n := by
  rw [natOfDigits, Nat.ofDigitChars_append, Nat.ofDigitChars_replicate_zero, Nat.mul_comm]
  rfl

/-- The digits of a number stand for it. -/
lemma natOfDigits_toDigits (n : Nat) : natOfDigits (Nat.toDigits 10 n) = n :=
  Nat.ofDigitChars_ten_toDigits

/-- What begins without a sign has none. -/
lemma splitSign_of_unsigned {c : Char} (minus : c ≠ '-') (plus : c ≠ '+') :
    splitSign (c :: cs) = (false, c :: cs) := by
  rw [splitSign]
  · rintro _ ⟨⟩
    exact minus rfl
  · rintro _ ⟨⟩
    exact plus rfl

/-- The digits of a number have no sign. -/
lemma splitSign_toDigits (n : Nat) :
    splitSign (Nat.toDigits 10 n) = (false, Nat.toDigits 10 n) := by
  obtain ⟨c, cs, h⟩ := List.exists_cons_of_ne_nil (Nat.toDigits_ne_nil (b := 10) (n := n))
  have digit : c.isDigit = true := isDigit_of_mem_toDigits c (by rw [h]; exact List.mem_cons_self)
  rw [h]
  refine splitSign_of_unsigned ?_ ?_
  · rintro rfl
    cases digit
  · rintro rfl
    cases digit

/-- The text of an integer: a minus if it is negative, and digits. -/
lemma toList_toString (x : Int) :
    (toString x).toList = (if x < 0 then ['-'] else []) ++ Nat.toDigits 10 x.natAbs := by
  have repr : toString x = x.repr := rfl
  rw [repr, Int.repr_eq_if]
  by_cases negative : x < 0
  · have magnitude : (-x).toNat = x.natAbs := by omega
    have sign : "-".toList = ['-'] := rfl
    rw [if_neg (by omega), if_pos negative, magnitude, Nat.repr_eq_ofList_toDigits,
      String.toList_append, sign, String.toList_ofList]
  · have magnitude : x.toNat = x.natAbs := by omega
    rw [if_pos (by omega), if_neg negative, magnitude, Nat.repr_eq_ofList_toDigits,
      String.toList_ofList]
    rfl

/-- The text of an integer is its sign and the digits of its magnitude. -/
lemma splitSign_toString (x : Int) :
    splitSign (toString x).toList = (decide (x < 0), Nat.toDigits 10 x.natAbs) := by
  rw [toList_toString]
  by_cases negative : x < 0
  · simp [negative, splitSign]
  · simp [negative, splitSign_toDigits]

/-- An integer is its magnitude with its sign. -/
lemma signed_natAbs (x : Int) :
    (if decide (x < 0) = true then -(x.natAbs : Int) else x.natAbs) = x := by
  by_cases negative : x < 0
  · rw [if_pos (decide_eq_true negative)]
    omega
  · rw [if_neg (by simpa using negative)]
    omega

/-- An integer is read from its text. -/
lemma readInt?_toString (x : Int) : readInt? (toString x).toList = some x := by
  simp only [readInt?, splitSign_toString, readNat?, isDigits_toDigits, if_true,
    natOfDigits_toDigits]
  exact congrArg some (signed_natAbs x)

end Numeral

namespace Decimal

open Numeral

/-- The exponent of a number is read exactly, unless it is far beyond that of any number that can be
held. -/
lemma exponentOfDigits_toDigits {n : Nat} (small : n < 655360) :
    exponentOfDigits (Nat.toDigits 10 n) = n := by
  induction n using Nat.strongRecOn with
  | ind n ih =>
    rcases Nat.lt_or_ge n 10 with one | more
    · rw [Nat.toDigits_of_lt_base one]
      simp [exponentOfDigits, Nat.toNat_digitChar_sub_48_of_lt_ten one]
    · have front : exponentOfDigits (Nat.toDigits 10 (n / 10)) = n / 10 :=
        ih (n / 10) (by omega) (by omega)
      rw [exponentOfDigits] at front
      rw [Nat.toDigits_of_base_le (by decide) more, exponentOfDigits, List.foldl_append, front]
      have last : (n % 10).digitChar.toNat - '0'.toNat = n % 10 :=
        Nat.toNat_digitChar_sub_48_of_lt_ten (Nat.mod_lt n (by decide))
      rw [List.foldl_cons, List.foldl_nil, if_pos (by omega), last]
      omega

/-- A written exponent is read back, if it is not huge. -/
lemma readExponent?_toString {x : Int} (small : x.natAbs < 655360) :
    readExponent? ('e' :: (toString x).toList) = some x := by
  simp only [readExponent?, splitSign_toString, isDigits_toDigits, exponentOfDigits_toDigits small,
    true_or, and_self, if_true, signed_natAbs]

section
variable {whole fraction rest : List Char}

/-- What does not begin with a digit has no digits in front. -/
lemma takeWhile_eq_nil (stop : ∀ c ∈ rest.head?, c.isDigit = false) :
    rest.takeWhile Char.isDigit = [] := by
  cases rest with
  | nil => rfl
  | cons c rest => rw [List.takeWhile_cons_of_neg (by rw [stop c rfl]; nofun)]

/-- What does not begin with a digit loses none. -/
lemma dropWhile_eq_self (stop : ∀ c ∈ rest.head?, c.isDigit = false) :
    rest.dropWhile Char.isDigit = rest := by
  cases rest with
  | nil => rfl
  | cons c rest => rw [List.dropWhile_cons_of_neg (by rw [stop c rfl]; nofun)]

/-- Reads digits on both sides of a point, and what follows them. -/
lemma read?_of_point (digits : ∀ c ∈ whole, c.isDigit = true)
    (digits' : ∀ c ∈ fraction, c.isDigit = true) (ne : whole ≠ [])
    (stop : ∀ c ∈ rest.head?, c.isDigit = false) :
    read? (whole ++ '.' :: (fraction ++ rest)) =
      (readExponent? rest).map fun e => ⟨natOfDigits (whole ++ fraction), e - fraction.length⟩ := by
  have front : (whole ++ '.' :: (fraction ++ rest)).takeWhile Char.isDigit = whole := by
    rw [List.takeWhile_append_of_pos digits]
    exact List.append_nil whole
  have point : (whole ++ '.' :: (fraction ++ rest)).dropWhile Char.isDigit =
      '.' :: (fraction ++ rest) :=
    List.dropWhile_append_of_pos digits
  have back : (fraction ++ rest).takeWhile Char.isDigit = fraction := by
    rw [List.takeWhile_append_of_pos digits', takeWhile_eq_nil stop, List.append_nil]
  have behind : (fraction ++ rest).dropWhile Char.isDigit = rest := by
    rw [List.dropWhile_append_of_pos digits', dropWhile_eq_self stop]
  simp only [read?, front, point, back, behind]
  rw [if_neg (by simp [ne])]

/-- Reads digits without a point, and what follows them. -/
lemma read?_of_digits (digits : ∀ c ∈ whole, c.isDigit = true) (ne : whole ≠ [])
    (stop : ∀ c ∈ rest.head?, c.isDigit = false ∧ c ≠ '.') :
    read? (whole ++ rest) = (readExponent? rest).map fun e => ⟨natOfDigits whole, e⟩ := by
  have noDigit : ∀ c ∈ rest.head?, c.isDigit = false := fun c hc => (stop c hc).1
  have front : (whole ++ rest).takeWhile Char.isDigit = whole := by
    rw [List.takeWhile_append_of_pos digits, takeWhile_eq_nil noDigit, List.append_nil]
  have behind : (whole ++ rest).dropWhile Char.isDigit = rest := by
    rw [List.dropWhile_append_of_pos digits, dropWhile_eq_self noDigit]
  rw [read?, front, behind]
  split
  next fraction behind h =>
    split at h
    · exact absurd rfl (stop '.' rfl).2
    · cases h
      rw [if_neg (by simp [ne]), List.append_nil]
      simp

end

/-- The same number, whatever its digits and exponent are. -/
def SameNumber (d d' : Decimal) : Prop := d.num * d'.den = d'.num * d.den

variable (d : Decimal)

/-- The number of digits gives the place of the point. -/
lemma length_toDigits : ((Nat.toDigits 10 d.digits).length : Int) = d.point - d.exponent := by
  rw [point]
  omega

/-- Digits around a point are read as the number that they are without it, less the places behind
it. -/
lemma read?_point (whole fraction : List Char) (digits : ∀ c ∈ whole ++ fraction, c.isDigit = true)
    (ne : whole ≠ []) :
    read? (whole ++ '.' :: fraction) =
      some ⟨natOfDigits (whole ++ fraction), -fraction.length⟩ := by
  have h : read? (whole ++ '.' :: (fraction ++ [])) = _ :=
    read?_of_point (fun c hc => digits c (List.mem_append_left _ hc))
      (fun c hc => digits c (List.mem_append_right _ hc)) ne nofun
  rw [List.append_nil] at h
  rw [h, readExponent?, Option.map_some, Int.zero_sub]

/-- The positional form is read as the same number. -/
lemma read?_positional : ∃ d', read? d.positional.toList = some d' ∧ d.SameNumber d' := by
  have digits := isDigit_of_mem_toDigits (n := d.digits)
  have value := natOfDigits_toDigits d.digits
  have length := d.length_toDigits
  have ne : Nat.toDigits 10 d.digits ≠ [] := Nat.toDigits_ne_nil
  rw [positional]
  generalize Nat.toDigits 10 d.digits = cs at digits value length ne ⊢
  dsimp only
  split
  -- all digits stand behind the point
  · next left =>
    refine ⟨d, ?_, rfl⟩
    have whole : ['0'] ++ (List.replicate (-d.point).toNat '0' ++ cs) =
        List.replicate ((-d.point).toNat + 1) '0' ++ cs := rfl
    have places : -((List.replicate (-d.point).toNat '0' ++ cs).length : Int) = d.exponent := by
      rw [List.length_append, List.length_replicate]
      omega
    have read := read?_point ['0'] (List.replicate (-d.point).toNat '0' ++ cs)
      (by rw [whole]; exact List.forall_mem_append.mpr ⟨isDigit_of_mem_zeros, digits⟩)
        (List.cons_ne_nil _ _)
    rw [whole, natOfDigits_zeros_append, value, places] at read
    rw [String.toList_ofList]
    exact read
  · next right =>
    split
    -- all digits stand before the point
    · next nonneg =>
      have zeros : cs ++ List.replicate d.exponent.toNat '0' ++ ['0'] =
          cs ++ List.replicate (d.exponent.toNat + 1) '0' := by
        rw [List.append_assoc, List.replicate_succ']
      have read := read?_point (cs ++ List.replicate d.exponent.toNat '0') ['0']
        (by rw [zeros]; exact List.forall_mem_append.mpr ⟨digits, isDigit_of_mem_zeros⟩)
          (by simp [ne])
      rw [zeros, natOfDigits_append_zeros, value] at read
      rw [String.toList_ofList]
      refine ⟨_, read, ?_⟩
      have integral : (-d.exponent).toNat = 0 := by omega
      rw [SameNumber, num, num, den, den, integral]
      show d.digits * Nat.pow 10 d.exponent.toNat * 10 =
        d.digits * (Nat.pow 10 d.exponent.toNat * 10) * 1 * 1
      rw [Nat.mul_one, Nat.mul_one, Nat.mul_assoc]
    -- the point stands among the digits
    · next negative =>
      refine ⟨d, ?_, rfl⟩
      have places : -((cs.drop d.point.toNat).length : Int) = d.exponent := by
        rw [List.length_drop]
        omega
      have read := read?_point (cs.take d.point.toNat) (cs.drop d.point.toNat)
        (by rw [List.take_append_drop]; exact digits) (by simp [ne]; omega)
      rw [List.take_append_drop, value, places] at read
      rw [String.toList_ofList]
      exact read

/-- The scientific form is read as the same digits and exponent. -/
lemma read?_scientific (small : (d.point - 1).natAbs < 655360) :
    read? d.scientific.toList = some d := by
  have digits := isDigit_of_mem_toDigits (n := d.digits)
  have value := natOfDigits_toDigits d.digits
  have length := d.length_toDigits
  have exponent : (toString "e" ++ toString (d.point - 1)).toList =
      'e' :: (toString (d.point - 1)).toList := by
    rw [String.toList_append]
    rfl
  have ne : Nat.toDigits 10 d.digits ≠ [] := Nat.toDigits_ne_nil
  rw [scientific]
  generalize Nat.toDigits 10 d.digits = cs at digits value length ne ⊢
  rw [String.toList_append, String.toList_ofList, exponent]
  have stop : ∀ c ∈ ('e' :: (toString (d.point - 1)).toList).head?, c.isDigit = false ∧
      c ≠ '.' := by
    rintro _ ⟨⟩
    decide
  -- a single digit is written without a point
  rcases cs with _ | ⟨c, _ | ⟨c', rest⟩⟩
  · exact absurd rfl ne
  · have place : d.point - 1 = d.exponent := by
      rw [List.length_singleton] at length
      omega
    show read? ([c] ++ 'e' :: (toString (d.point - 1)).toList) = some d
    rw [read?_of_digits digits ne stop, readExponent?_toString small, Option.map_some, value, place]
  · have place : d.point - 1 - ((c' :: rest).length : Int) = d.exponent := by
      rw [List.length_cons] at length
      omega
    show read? ([c] ++ '.' :: ((c' :: rest) ++ 'e' :: (toString (d.point - 1)).toList)) = some d
    rw [read?_of_point (fun _ h => digits _ (List.mem_append_left (c' :: rest) h))
      (fun _ h => digits _ (List.mem_append_right [c] h)) (List.cons_ne_nil _ _)
      (fun c hc => (stop c hc).1), readExponent?_toString small, Option.map_some, place]
    show some ⟨natOfDigits (c :: c' :: rest), d.exponent⟩ = some d
    rw [value]

/-- A decimal is read from its text as the same number. -/
lemma read?_text (small : (d.point - 1).natAbs < 655360) :
    ∃ d', read? d.text.toList = some d' ∧ d.SameNumber d' := by
  rw [text]
  split
  · exact d.read?_positional
  · exact ⟨d, d.read?_scientific small, rfl⟩

/-- What is read as a number starts with a digit or a point. -/
lemma exists_cons_of_read? {cs : List Char} {d : Decimal} (h : read? cs = some d) :
    ∃ c rest, cs = c :: rest ∧ (c.isDigit = true ∨ c = '.') := by
  cases cs with
  | nil => cases h
  | cons c rest =>
    refine ⟨c, rest, rfl, ?_⟩
    cases digit : c.isDigit with
    | true => exact .inl rfl
    | false =>
      have stop : ∀ c' ∈ (c :: rest).head?, c'.isDigit = false := by
        rintro _ ⟨⟩
        exact digit
      rw [read?, takeWhile_eq_nil stop, dropWhile_eq_self stop] at h
      split at h
      next fraction behind parts =>
        split at parts
        · next eq => exact .inr (List.cons.inj eq).1
        · cases parts
          cases h

/-- There is no newline among the digits of a number. -/
lemma newline_not_mem_toDigits (n : Nat) : '\n' ∉ Nat.toDigits 10 n := by
  intro h
  cases isDigit_of_mem_toDigits _ h

/-- There is no newline in the text of an integer. -/
lemma newline_not_mem_toString (x : Int) : '\n' ∉ (toString x).toList := by
  rw [toList_toString, List.mem_append, not_or]
  refine ⟨?_, newline_not_mem_toDigits _⟩
  split <;> decide

/-- There is no newline in the text of a decimal. -/
lemma newline_not_mem_text : '\n' ∉ d.text.toList := by
  have digits := newline_not_mem_toDigits d.digits
  have exponent := newline_not_mem_toString (d.point - 1)
  rw [text]
  split
  · rw [positional]
    generalize Nat.toDigits 10 d.digits = cs at digits ⊢
    dsimp only
    split
    · simp [digits]
    · split
      · simp [digits]
      · simp only [String.toList_ofList, List.mem_append, List.mem_cons, not_or]
        exact ⟨fun h => digits
          (List.mem_of_mem_take h), by decide, fun h => digits (List.mem_of_mem_drop h)⟩
  · rw [scientific]
    generalize Nat.toDigits 10 d.digits = cs at digits ⊢
    have mark : '\n' ∉ (toString "e").toList := by decide
    rw [String.toList_append, String.toList_append, List.mem_append, List.mem_append,
      String.toList_ofList]
    refine not_or.mpr ⟨?_, not_or.mpr ⟨mark, exponent⟩⟩
    rcases cs with _ | ⟨c, _ | ⟨c', rest⟩⟩
    · exact digits
    · exact digits
    · simpa using digits

end Decimal

end TypedStack
