import Mathlib.Tactic.Lemma
import TypedStack.Source.Basic

/-!
# Results of parsing

What a parser that succeeded has read, and the errors with which one can fail:
`Source.isOfReading_of_next` collects them for every source.
-/

namespace TypedStack

/-- A mapped result comes from a result. -/
lemma exists_ok_of_map {α β : Type} {f : α → β} {x : Except Error α} {b : β} (h : x.map f = .ok b) :
    ∃ a, x = .ok a ∧ f a = b := by
  cases x with
  | error e => cases h
  | ok a => exact ⟨a, rfl, Except.ok.inj h⟩

/-- A mapped error is the error. -/
lemma eq_error_of_map {α β : Type} {f : α → β} {x : Except Error α} {e : Error}
    (he : x.map f = .error e) :
    x = .error e := by
  cases x with
  | error e' =>
    cases he
    rfl
  | ok a => cases he

namespace Instruction

/-- The words behind a mnemonic are none, or one that is a value; the operation decides which. -/
lemma parseArguments_ok {op : Opcode} {words : List String} {i : Instruction}
    (hi : parseArguments op words = .ok i) :
    (op.takesLiteral = false ∧ words = [] ∧ i = ⟨op, none⟩) ∨
      (op.takesLiteral = true ∧ ∃ word l, words = [word] ∧ Literal.parse word = .ok l ∧
        i = ⟨op, some l⟩) := by
  unfold parseArguments at hi
  split at hi
  · split at hi
    · cases hi
    · next takes =>
      cases hi
      exact .inl ⟨Bool.eq_false_iff.mpr takes, rfl, rfl⟩
  · next word =>
    split at hi
    · next takes =>
      obtain ⟨l, hl, rfl⟩ := exists_ok_of_map hi
      exact .inr ⟨takes, word, l, rfl, hl, rfl⟩
    · cases hi
  · cases hi

/-- A line with an instruction begins with its mnemonic. -/
lemma parse_ok {line : String} {i : Instruction} (hi : parse line = .ok (some i)) :
    ∃ arguments, Text.codeWords line = i.opcode.mnemonic :: arguments ∧
      parseArguments i.opcode arguments = .ok i := by
  unfold parse at hi
  split at hi
  · cases hi
  · next first arguments hwords =>
    split at hi
    · cases hi
    · next op hop =>
      obtain ⟨i', hi, he⟩ := exists_ok_of_map hi
      cases he
      have same : i.opcode = op := by
        rcases parseArguments_ok hi with ⟨-, -, rfl⟩ | ⟨-, -, -, -, -, rfl⟩ <;> rfl
      subst same
      exact ⟨arguments, by rw [hwords, Opcode.mnemonic_of_ofMnemonic? hop], hi⟩

/-- A parsed line carries a literal if its operation takes one. -/
lemma isSome_literal_of_parse {line : String} {i : Instruction} (hi : parse line = .ok (some i)) :
    i.literal.isSome = i.opcode.takesLiteral := by
  obtain ⟨arguments, -, hi⟩ := parse_ok hi
  rcases parseArguments_ok hi with ⟨takes, -, he⟩ | ⟨takes, word, l, -, -, he⟩
  · rw [takes, he]
    rfl
  · rw [takes, he]
    rfl

end Instruction

/-! ## Errors -/

/-- The errors that can arise before an instruction is performed. -/
def Error.isOfReading : Error → Bool
  | .literalOutOfRange .. | .unknownInstruction _ | .malformedValue _ | .missingLiteral _ |
    .unexpectedLiteral _
  | .device _ => true
  | _ => false

/-- A literal that is not accepted fails with an error of reading. -/
lemma Literal.isOfReading_of_parse {word : String} {e : Error}
    (he : Literal.parse word = .error e) :
    e.isOfReading = true := by
  unfold Literal.parse at he
  split at he
  · cases he
    rfl
  · split at he
    · cases he
    · cases he
      rfl

/-- Words behind a mnemonic that are not accepted fail with an error of reading. -/
lemma Instruction.isOfReading_of_parseArguments {op : Opcode} {words : List String} {e : Error}
    (he : parseArguments op words = .error e) : e.isOfReading = true := by
  unfold parseArguments at he
  split at he
  · split at he
    · cases he
      rfl
    · cases he
  · split at he
    · exact Literal.isOfReading_of_parse (eq_error_of_map he)
    · cases he
      rfl
  · cases he
    rfl

/-- A line that cannot be read fails with an error of reading. -/
lemma Instruction.isOfReading_of_parse {line : String} {e : Error} (he : parse line = .error e) :
    e.isOfReading = true := by
  unfold parse at he
  split at he
  · cases he
  · split at he
    · cases he
      rfl
    · exact isOfReading_of_parseArguments (eq_error_of_map he)

/-- A line is an error because its text is, or because it has none. -/
lemma LineMeaning.error_of_ofBytes {mode : Mode} {line : List UInt8} {e : Error}
    (he : ofBytes mode line = .error e) :
    (∃ text, Instruction.parse text = .error e) ∨
      e = .device "stream did not contain valid UTF-8" := by
  unfold ofBytes at he
  split at he
  · unfold ofText at he
    split at he
    · cases he
    · split at he
      · cases he
      · cases he
      · next parsed =>
        cases he
        exact .inl ⟨_, parsed⟩
  · cases he
    exact .inr rfl

namespace Listing

/-- A pull fails by its line, or because that is no text. -/
lemma error_of_pull {mode : Mode} {bytes : List UInt8} {line : Nat} {e : Error}
    (he : (pull mode bytes line).result = .error e) :
    (∃ text, Instruction.parse text = .error e) ∨
      e = .device "stream did not contain valid UTF-8" := by
  fun_induction pull mode bytes line with
  | case1 line => cases he
  | case2 line b bs rest _ ih => exact ih he
  | case3 line b bs rest _ => cases he
  | case4 line b bs rest i _ => cases he
  | case5 line b bs rest e' meaning =>
    cases he
    exact LineMeaning.error_of_ofBytes meaning

/-- A listing fails by a line, or because that is no text. -/
lemma error_of_next {l : Listing} {e : Error} (he : l.next.result = .error e) :
    (∃ text, Instruction.parse text = .error e) ∨
      e = .device "stream did not contain valid UTF-8" := by
  obtain ⟨mode, rest, line, finished⟩ := l
  cases finished with
  | true => cases he
  | false => exact error_of_pull he

end Listing

/-- A pull fails only with an error of reading, whatever the source. -/
lemma Source.isOfReading_of_next {s : Source} {e : Error} (he : s.next.result = .error e) :
    e.isOfReading = true := by
  cases s with
  | program p =>
    obtain ⟨rest, line⟩ := p
    cases rest with
    | nil => cases he
    | cons i rest => cases he
  | listing l =>
    rcases Listing.error_of_next he with ⟨text, parsed⟩ | rfl
    · exact Instruction.isOfReading_of_parse parsed
    · rfl
  | unreadable line reason =>
    cases he
    rfl

end TypedStack
