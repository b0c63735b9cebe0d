import TypedStack.Operand
import TypedStack.Proofs.Shortest

/-!
# Reading texts back

The canonical text of an operand, read as a number of its kind, gives this operand.
-/

namespace TypedStack

namespace Word

/-- The text of a word is read back. -/
lemma read?_text {n : Nat} (a : BitVec n) : read? n (text a).toList = some a := by
  have low := BitVec.toInt_intMin_le a
  have high : a.toInt ≤ (BitVec.intMax n).toInt := by
    rw [BitVec.toInt_intMax]
    exact BitVec.toInt_le
  rw [read?, text, Numeral.readInt?_toString, Option.bind_some, if_pos ⟨low, high⟩,
    BitVec.ofInt_toInt]

end Word

namespace Binary

variable {f : Format} {s : Bool} {cs : List Char}

/-- Characters of numbers have no case. -/
lemma toLower_of_numeric {c : Char} (numeric : c.isDigit = true ∨ c = '.') : c.toLower = c := by
  rcases numeric with digit | rfl
  · have small : c.val ≤ '9'.val := of_decide_eq_true (Bool.and_eq_true_iff.mp digit).2
    exact dif_neg fun upper => absurd (UInt32.le_trans upper.1 small) (by decide)
  · rfl

/-- What begins as a number is not one of the names. -/
lemma ofList_map_toLower_ne {c c' : Char} {tail : List Char} (numeric : c.isDigit = true ∨ c = '.')
    (rest : List Char) (name : String) (start : name.toList = c' :: tail)
    (letter : ¬ (c'.isDigit = true ∨ c' = '.')) :
    String.ofList ((c :: rest).map Char.toLower) ≠ name := by
  rintro rfl
  rw [String.toList_ofList, List.map_cons, toLower_of_numeric numeric] at start
  exact letter ((List.cons.inj start).1 ▸ numeric)

/-- What is read as a decimal is not the name of a special value. -/
lemma readMagnitude?_of_read? {d : Decimal} (read : Decimal.read? cs = some d) :
    readMagnitude? f s cs = some (ofDecimal f s d) := by
  obtain ⟨c, rest, rfl, numeric⟩ := Decimal.exists_cons_of_read? read
  have nan := ofList_map_toLower_ne numeric rest "nan" rfl (by decide)
  have inf := ofList_map_toLower_ne numeric rest "inf" rfl (by decide)
  have infinity := ofList_map_toLower_ne numeric rest "infinity" rfl (by decide)
  rw [readMagnitude?, if_neg nan, if_neg (not_or.mpr ⟨inf, infinity⟩), read]
  rfl

/-- A sign in front of a magnitude is read as the sign of the number. -/
lemma read?_signed {c : Char} {rest : List Char} {magnitude : String} {x : Binary f}
    (start : magnitude.toList = c :: rest) (minus : c ≠ '-') (plus : c ≠ '+')
    (read : readMagnitude? f s magnitude.toList = some x) :
    read? f (signText s ++ magnitude).toList = some x := by
  have split : Numeral.splitSign (signText s ++ magnitude).toList = (s, magnitude.toList) := by
    rw [String.toList_append, start]
    cases s with
    | false => exact Numeral.splitSign_of_unsigned minus plus
    | true => rfl
  rw [read?, split]
  exact read

/-- A decimal with a sign is read as the number that it is rounded to. -/
lemma read?_of_decimal {magnitude : String} {d : Decimal}
    (read : Decimal.read? magnitude.toList = some d) :
    read? f (signText s ++ magnitude).toList = some (ofDecimal f s d) := by
  obtain ⟨c, rest, start, numeric⟩ := Decimal.exists_cons_of_read? read
  refine read?_signed start ?_ ?_ (readMagnitude?_of_read? read)
  · rintro rfl
    rcases numeric with h | h <;> cases h
  · rintro rfl
    rcases numeric with h | h <;> cases h

/-- Zero is read as zero. -/
lemma readsAs_zero (f : Format) : readsAs f 0 ⟨0, -1⟩ = true := by
  have num : (⟨0, -1⟩ : Decimal).num * f.one = f.units 0 * (⟨0, -1⟩ : Decimal).den := by
    rw [f.units_eq_self (Nat.zero_le _), Nat.zero_mul]
    exact Nat.zero_mul _
  rw [readsAs, beq_iff_eq, num]
  exact Format.nearestCode_units 0 (Decimal.den_pos _)

/-- The text of a floating-point number is read back. -/
lemma read?_text (moderate : 4 * f.reach + 46 < 655360) (x : Binary f) :
    read? f x.text.toList = some x := by
  cases x with
  | nan =>
    have split : Numeral.splitSign "NaN".toList = (false, "NaN".toList) := by decide
    rw [text, read?, split]
    show readMagnitude? f false "NaN".toList = some nan
    rw [readMagnitude?, if_pos (by decide)]
  | infinite s =>
    refine read?_signed rfl (by decide) (by decide) ?_
    rw [readMagnitude?, if_neg (by decide), if_pos (by decide)]
  | finite s code =>
    rw [text]
    split
    · next zero =>
      have read : Decimal.read? "0.0".toList = some ⟨0, -1⟩ := by decide
      have reads : readsAs f code ⟨0, -1⟩ = true := by
        rw [zero]
        exact readsAs_zero f
      rw [read?_of_decimal read, ofDecimal_of_readsAs s reads]
    · obtain ⟨d, read, same⟩ := exists_read?_shortest moderate code s
      rw [read?_of_decimal read, same]

end Binary

namespace Value

/-- The text of a number of any kind is read back. -/
lemma read?_text {k : Kind} (x : Value k) : read? k x.text.toList = some x := by
  cases k with
  | integer w => exact Word.read?_text x
  | floating p =>
    have moderate : 4 * p.format.reach + 46 < 655360 := by cases p <;> decide
    exact Binary.read?_text moderate x

end Value

namespace Operand

/-- The text of an operand is read back. -/
lemma read_text (x : Operand) : read x.kind x.text = .ok x := by
  rw [read, text, Value.read?_text]

end Operand

end TypedStack
