import TypedStack.Proofs.IntegerText
import TypedStack.Proofs.Loading

/-!
# Assertions

An assertion compares texts. Among integers this is the same as to compare numbers, whatever their
widths are, because a number has one canonical text. An integer and a floating-point number are
never equal in this sense: the text of the one is made of digits and a sign, and that of the other
has a point or a letter in it.
-/

namespace TypedStack

/-! ## Marks of floating-point texts -/

/-- A point or a letter. -/
def Numeral.IsMark (c : Char) : Prop := c = '.' ∨ c.isAlpha = true

instance : DecidablePred Numeral.IsMark := fun _ => inferInstanceAs (Decidable (_ ∨ _))

/-- A digit is no mark. -/
lemma Numeral.not_isMark_of_isDigit {c : Char} (digit : c.isDigit = true) : ¬ IsMark c := by
  have all : "0123456789".toList.all (fun c => ¬ IsMark c) = true := by decide
  exact of_decide_eq_true (List.all_eq_true.mp all c (isDigit_iff_mem.mp digit))

/-- A positional text has a point, and a scientific one has the letter before the exponent. -/
lemma Decimal.point_or_exponent_mem_text (d : Decimal) :
    '.' ∈ d.text.toList ∨ 'e' ∈ d.text.toList := by
  rw [text]
  split
  · left
    rw [positional]
    dsimp only
    split
    · simp
    · split
      · simp
      · simp
  · right
    rw [scientific, String.toList_append, String.toList_append]
    exact List.mem_append_right _ (List.mem_append_left _ List.mem_cons_self)

namespace Operand

open Numeral

/-- The text of a floating-point number has a mark. -/
lemma exists_mark_of_floating {p : Precision} (x : Binary p.format) :
    ∃ c ∈ (text ⟨.floating p, x⟩).toList, IsMark c := by
  show ∃ c ∈ x.text.toList, IsMark c
  cases x with
  | nan =>
    have letter : 'N' ∈ "NaN".toList := by decide
    exact ⟨'N', letter, by decide⟩
  | infinite s =>
    rw [Binary.text, String.toList_append]
    exact ⟨'i', List.mem_append_right _ (by decide), by decide⟩
  | finite s code =>
    rw [Binary.text, String.toList_append]
    split
    · exact ⟨'.', List.mem_append_right _ (by decide), by decide⟩
    · rcases Decimal.point_or_exponent_mem_text (Binary.shortest p.format code) with point | letter
      · exact ⟨'.', List.mem_append_right _ point, by decide⟩
      · exact ⟨'e', List.mem_append_right _ letter, by decide⟩

/-- The text of an integer has no mark. -/
lemma not_isMark_of_integer {w : Width} {a : BitVec w.bits} :
    ∀ c ∈ (text ⟨.integer w, a⟩).toList, ¬ IsMark c := by
  intro c hc
  have hc : c ∈ (toString a.toInt).toList := hc
  rw [toList_toString, List.mem_append] at hc
  rcases hc with sign | digit
  · split at sign
    · rw [List.mem_singleton.mp sign]
      decide
    · cases sign
  · exact not_isMark_of_isDigit (isDigit_of_mem_toDigits c digit)

/-- Exactly the texts of floating-point numbers have a mark. -/
lemma exists_mark_iff (x : Operand) :
    (∃ c ∈ x.text.toList, IsMark c) ↔ x.kind.isInteger = false := by
  obtain ⟨kind, value⟩ := x
  cases kind with
  | integer w =>
    refine iff_of_false ?_ nofun
    rintro ⟨c, hc, mark⟩
    exact not_isMark_of_integer c hc mark
  | floating p => exact iff_of_true (exists_mark_of_floating value) rfl

/-- Operands with equal texts are both integers, or both not. -/
lemma isInteger_eq_of_text_eq {x y : Operand} (h : x.text = y.text) :
    x.kind.isInteger = y.kind.isInteger := by
  have marks := exists_mark_iff x
  rw [h, exists_mark_iff y] at marks
  cases hx : x.kind.isInteger with
  | false => rw [marks.mpr hx]
  | true =>
    refine (Bool.eq_true_of_not_eq_false fun hy => ?_).symm
    exact Bool.false_ne_true ((marks.mp hy).symm.trans hx)

/-- Integers of any widths are equal numbers if and only if they have equal texts. -/
lemma text_eq_iff_of_integers {v w : Width} {a : BitVec v.bits} {b : BitVec w.bits} :
    text ⟨.integer v, a⟩ = text ⟨.integer w, b⟩ ↔ a.toInt = b.toInt := by
  obtain ⟨canonical, value⟩ := text_integer_eq_iff.mp (Eq.refl (text ⟨.integer w, b⟩))
  rw [text_integer_eq_iff, value]
  exact ⟨fun h => h.2.symm, fun h => ⟨canonical, h.symm⟩⟩

end Operand

/-! ## Assertions -/

/-- An integer literal stands for the number that its text is read as, whatever sign and zeros it
begins with. -/
lemma Literal.signedValue_of_operand {l : Literal} {w : Width} {b : BitVec w.bits}
    (built : l.operand = .ok ⟨.integer w, b⟩) : Numeral.signedValue l.text.toList = b.toInt := by
  have kind : .integer w = l.kind := kind_of_operand built
  rw [operand, ← kind] at built
  obtain ⟨a, same, -, value⟩ := Operand.read_integer_eq_ok_iff.mp built
  cases same
  exact value

namespace Effect

open Numeral

variable {σ : Type} {s : Stack} {out : σ} {y : Operand} {l : Literal}

/-- An assertion compares with the operand that its literal stands for. -/
lemma ofInstruction_assert [Sink σ] (built : l.operand = .ok y) :
    ofInstruction ⟨.assert, some l⟩ s out = assert y s out := by
  simp only [ofInstruction, Instruction.operand, built]

/-- An assertion of another text fails and gives both texts. -/
lemma assert_eq_failed (differ : s.top?.map Operand.text ≠ some y.text) :
    assert y s out = failed s out (.assertionFailed y.text (s.top?.map Operand.text)) :=
  if_neg differ

/-- An assertion holds if and only if the texts are equal. -/
lemma assert_eq_done_iff : assert y s out = done s out ↔ s.top?.map Operand.text = some y.text := by
  constructor
  · intro holds
    by_contra differ
    cases (assert_eq_failed differ).symm.trans holds
  · intro same
    exact if_pos same

/-- An assertion on an integer and an integer literal, of one width or of two, holds if they are
equal numbers, and only then. On an integer and a floating-point number it always fails, because the
text of a floating-point number has a point or a letter in it and that of an integer has none. An
assertion that fails gives both texts, and changes nothing. -/
theorem assert_compares_numbers [Sink σ] (l : Literal) (y : Operand) (built : l.operand = .ok y)
    (s : Stack) (out : σ) :
    let effect := ofInstruction ⟨.assert, some l⟩ s out
    let failure := failed s out (.assertionFailed y.text (s.top?.map Operand.text))
    (effect = done s out ∨ effect = failure) ∧
    (s.top? = none → effect = failure) ∧
    (∀ (v w : Width) (a : BitVec v.bits) (b : BitVec w.bits), s.top? = some ⟨.integer v, a⟩ →
      y = ⟨.integer w, b⟩ →
      b.toInt = signedValue l.text.toList ∧ (effect = done s out ↔ a.toInt = b.toInt)) ∧
    (∀ x, s.top? = some x → x.kind.isInteger ≠ y.kind.isInteger → effect = failure) ∧
    (∀ x : Operand, (∃ c ∈ x.text.toList, IsMark c) ↔ x.kind.isInteger = false) := by
  intro effect failure
  have effect_eq : effect = assert y s out := ofInstruction_assert built
  rw [effect_eq]
  refine ⟨?_, ?_, ?_, ?_, Operand.exists_mark_iff⟩
  · by_cases same : s.top?.map Operand.text = some y.text
    · exact .inl (assert_eq_done_iff.mpr same)
    · exact .inr (assert_eq_failed same)
  · intro empty
    refine assert_eq_failed ?_
    rw [empty]
    nofun
  · rintro v w a b top rfl
    rw [assert_eq_done_iff, top, Option.map_some, Option.some.injEq]
    exact ⟨(Literal.signedValue_of_operand built).symm, Operand.text_eq_iff_of_integers⟩
  · intro x top differ
    refine assert_eq_failed fun same => differ ?_
    rw [top] at same
    exact Operand.isInteger_eq_of_text_eq (Option.some.inj same)

/-- With an `int16` five on top, `int8(+005)` is asserted and `double(5)` is not; on an empty stack
nothing is. -/
theorem assert_compares_numbers_of_five :
    let s := Stack.unlimited [⟨.int16, 5#16⟩]
    let five := Instruction.mk .assert (some ⟨.int8, "+005"⟩)
    let real := Instruction.mk .assert (some ⟨.double, "5"⟩)
    ofInstruction five s Buffer.unlimited = done s Buffer.unlimited ∧
    ofInstruction real s Buffer.unlimited =
      failed s Buffer.unlimited (.assertionFailed "5.0" (some "5")) ∧
    ofInstruction five (.empty none) Buffer.unlimited =
      failed (.empty none) Buffer.unlimited (.assertionFailed "5" none) := by
  intro s five real
  have built : Literal.operand ⟨.int8, "+005"⟩ = .ok ⟨.int8, 5#8⟩ := by decide +kernel
  have built' : Literal.operand ⟨.double, "5"⟩ = .ok ⟨.double, Binary.ofInt .double 5⟩ := by
    decide +kernel
  have text : Operand.text ⟨.double, Binary.ofInt .double 5⟩ = "5.0" := by decide +kernel
  obtain ⟨-, -, numbers, -, -⟩ := assert_compares_numbers _ _ built s Buffer.unlimited
  obtain ⟨-, -, -, crosses, -⟩ := assert_compares_numbers _ _ built' s Buffer.unlimited
  obtain ⟨-, empty, -, -, -⟩ := assert_compares_numbers _ _ built (.empty none) Buffer.unlimited
  have real := crosses _ rfl (by decide)
  rw [text] at real
  exact ⟨(numbers .w16 .w8 _ _ rfl rfl).2.mpr (by decide), real, empty rfl⟩

end Effect

end TypedStack
