import TypedStack.Proofs.Layout
import TypedStack.Proofs.Loading

/-!
# The grammar of lines

A line is read by its words, which are the maximal runs of characters without blanks before the
first semicolon. `Instruction.Reading` gives the rules by which the words make an instruction,
nothing or an error; at most one rule applies, and reading a line follows the rules. A writable
instruction is read from every line on which it is laid out.
-/

namespace TypedStack

/-- The words with which instructions begin. -/
def Opcode.mnemonics : List String :=
  ["push", "pop", "dump", "assert", "add", "sub", "mul", "div", "mod", "print", "exit"]

/-- The mnemonics are the words that are read as opcodes. -/
lemma Opcode.mem_mnemonics_iff {word : String} :
    word ∈ mnemonics ↔ ∃ op, ofMnemonic? word = some op := by
  have names : mnemonics = all.map mnemonic := by decide
  rw [names, List.mem_map]
  constructor
  · rintro ⟨op, -, rfl⟩
    exact ⟨op, ofMnemonic?_mnemonic op⟩
  · rintro ⟨op, h⟩
    exact ⟨op, List.mem_of_find?_eq_some h, mnemonic_of_ofMnemonic? h⟩

namespace Instruction

/-- What the words of a line are read as. The first word is looked at first, then whether there are
too many, and only then the value. -/
inductive Reading : List String → Except Error (Option Instruction) → Prop where
  | blank : Reading [] (.ok none)
  | unknown {first : String} {rest : List String} :
    first ∉ Opcode.mnemonics → Reading (first :: rest) (.error (.unknownInstruction first))
  | extra {op : Opcode} {second third : String} {rest : List String} :
    Reading (op.mnemonic :: second :: third :: rest) (.error (.malformedValue third))
  | missing {op : Opcode} :
    op = .push ∨ op = .assert → Reading [op.mnemonic] (.error (.missingLiteral op))
  | literal {op : Opcode} {word : String} {l : Literal} :
    op = .push ∨ op = .assert → Literal.parse word = .ok l →
      Reading [op.mnemonic, word] (.ok (some ⟨op, some l⟩))
  | badLiteral {op : Opcode} {word : String} {e : Error} :
    op = .push ∨ op = .assert → Literal.parse word = .error e →
      Reading [op.mnemonic, word] (.error e)
  | unexpected {op : Opcode} {word : String} :
    op ≠ .push → op ≠ .assert → Reading [op.mnemonic, word] (.error (.unexpectedLiteral op))
  | bare {op : Opcode} : op ≠ .push → op ≠ .assert → Reading [op.mnemonic] (.ok (some ⟨op, none⟩))

/-- The words behind a mnemonic are read by the rules. -/
lemma reading_of_parseArguments (op : Opcode) (arguments : List String) :
    Reading (op.mnemonic :: arguments) ((parseArguments op arguments).map some) := by
  rcases arguments with _ | ⟨word, _ | ⟨third, rest⟩⟩
  · rw [parseArguments]
    split
    · next takes => exact .missing (Opcode.takesLiteral_iff.mp takes)
    · next takes =>
      obtain ⟨noPush, noAssert⟩ := not_or.mp fun hop => takes (Opcode.takesLiteral_iff.mpr hop)
      exact .bare noPush noAssert
  · rw [parseArguments]
    split
    · next takes =>
      cases h : Literal.parse word with
      | ok l => exact .literal (Opcode.takesLiteral_iff.mp takes) h
      | error e => exact .badLiteral (Opcode.takesLiteral_iff.mp takes) h
    · next takes =>
      obtain ⟨noPush, noAssert⟩ := not_or.mp fun hop => takes (Opcode.takesLiteral_iff.mpr hop)
      exact .unexpected noPush noAssert
  · -- a third word is refused before the second one is read
    exact .extra

/-- A line is read by the rules. -/
lemma reading_of_parse (line : String) : Reading (Text.codeWords line) (parse line) := by
  rw [parse]
  cases Text.codeWords line with
  | nil => exact .blank
  | cons first arguments =>
    dsimp only
    cases h : Opcode.ofMnemonic? first with
    | none =>
      refine .unknown fun mem => ?_
      obtain ⟨op, hop⟩ := Opcode.mem_mnemonics_iff.mp mem
      cases h.symm.trans hop
    | some op =>
      rw [← Opcode.mnemonic_of_ofMnemonic? h]
      exact reading_of_parseArguments op arguments

/-- Behind a mnemonic, its arguments decide. -/
lemma parse_of_mnemonic {line : String} {op : Opcode} {arguments : List String}
    (hwords : Text.codeWords line = op.mnemonic :: arguments) :
    parse line = (parseArguments op arguments).map some := by
  rw [parse, hwords]
  dsimp only
  rw [Opcode.ofMnemonic?_mnemonic]

/-- What the rules allow is what a line is read as. -/
lemma parse_of_reading {line : String} {words : List String}
    {result : Except Error (Option Instruction)} (hwords : Text.codeWords line = words)
    (reads : Reading words result) : parse line = result := by
  cases reads with
  | blank => rw [parse, hwords]
  | @unknown first rest absent =>
    have none : Opcode.ofMnemonic? first = none := by
      rw [Option.eq_none_iff_forall_ne_some]
      exact fun op hop => absent (Opcode.mem_mnemonics_iff.mpr ⟨op, hop⟩)
    rw [parse, hwords]
    dsimp only
    rw [none]
  | extra => exact parse_of_mnemonic hwords
  | missing hop =>
    rw [parse_of_mnemonic hwords, parseArguments, if_pos (Opcode.takesLiteral_iff.mpr hop)]
    rfl
  | literal hop read | badLiteral hop read =>
    rw [parse_of_mnemonic hwords, parseArguments, if_pos (Opcode.takesLiteral_iff.mpr hop), read]
    rfl
  | unexpected noPush noAssert | bare noPush noAssert =>
    have takes : ¬ _ :=
      fun takes => not_or.mpr ⟨noPush, noAssert⟩ (Opcode.takesLiteral_iff.mp takes)
    rw [parse_of_mnemonic hwords, parseArguments, if_neg takes]
    rfl

end Instruction

/-! ## Instructions on a line -/

namespace Text

variable {before between after comment cs w w' : List Char}

/-- Words are the same as strings and as lists. -/
lemma map_toList_map_ofList (ws : List (List Char)) :
    (ws.map String.ofList).map String.toList = ws := by
  simp [Function.comp_def]

/-- Blanks around the code of a line and a comment behind it add no words. -/
lemma codeWords_around (noComment : ';' ∉ cs) (hbefore : ∀ c ∈ before, isBlank c = true)
    (hafter : ∀ c ∈ after, isBlank c = true) (hcomment : IsComment comment) :
    codeWords (String.ofList (before ++ cs ++ after ++ comment)) =
      (words cs).map String.ofList := by
  have absent {bs : List Char} (blanks : ∀ c ∈ bs, isBlank c = true) : ';' ∉ bs := fun mem => by
    cases blanks ';' mem
  have front : ';' ∉ before ++ cs ++ after := by
    simp [absent hbefore, noComment, absent hafter]
  rw [codeWords_eq, String.toList_ofList, code_append_of_not_mem front, code_of_isComment hcomment,
    List.append_nil, words_append_blanks _ hafter, words_blanks_append _ hbefore]

/-- Blanks between two words keep them apart. -/
lemma words_between (hw : IsWord w) (hw' : IsWord w') (hbetween : ∀ c ∈ between, isBlank c = true)
    (ne : between ≠ []) : words (w ++ (between ++ w')) = [w, w'] := by
  obtain ⟨b, bs, rfl⟩ := List.exists_cons_of_ne_nil ne
  obtain ⟨hb, hbs⟩ := List.forall_mem_cons.mp hbetween
  rw [List.cons_append, words_append_blank _ _ hb, words_blanks_append _ hbs, words_of_isWord hw,
    words_of_isWord hw']
  rfl

end Text

namespace Instruction

/-- The instruction on a line: its words with blanks before, between and behind them, and a
comment. -/
def laidOut (i : Instruction) (before between after comment : List Char) : String :=
  let code := match i.literal with
    | none => i.opcode.mnemonic.toList
    | some l => i.opcode.mnemonic.toList ++ (between ++ l.written.toList)
  String.ofList (before ++ code ++ after ++ comment)

/-- A writable instruction is laid out with its own words, because an accepted literal holds neither
blanks nor a semicolon. -/
lemma codeWords_laidOut {i : Instruction} {before between after comment : List Char}
    (writable : i.IsWritable) (hbefore : ∀ c ∈ before, Text.isBlank c = true)
    (hbetween : ∀ c ∈ between, Text.isBlank c = true) (ne : between ≠ [])
    (hafter : ∀ c ∈ after, Text.isBlank c = true) (hcomment : Text.IsComment comment) :
    Text.codeWords (i.laidOut before between after comment) = i.words := by
  obtain ⟨op, literal⟩ := i
  have mnemonic := op.isCode_mnemonic
  cases literal with
  | none =>
    rw [laidOut, Text.codeWords_around mnemonic.no_comment hbefore hafter hcomment,
      Text.words_of_isWord mnemonic.toIsWord, List.map_singleton, String.ofList_toList]
    rfl
  | some l =>
    obtain ⟨l', accepted⟩ := writable.accepted l rfl
    have word := Literal.isCode_written accepted
    have noComment : ';' ∉ op.mnemonic.toList ++ (between ++ l.written.toList) := by
      have blanks : ';' ∉ between := fun mem => by cases hbetween ';' mem
      simp [mnemonic.no_comment, blanks, word.no_comment]
    rw [laidOut, Text.codeWords_around noComment hbefore hafter hcomment,
      Text.words_between mnemonic.toIsWord word.toIsWord hbetween ne, List.map_cons,
      List.map_singleton, String.ofList_toList, String.ofList_toList]
    rfl

/-- Every line is read by the rules for its words, and the words are what the line holds before its
comment. Conversely, a writable instruction is read from every line on which it is laid out. -/
theorem parse_follows_rules :
    (∀ line : String,
      Text.Holds ((Text.codeWords line).map String.toList) line.toList ∧
      (∀ words, Text.Holds words line.toList → words = (Text.codeWords line).map String.toList) ∧
      ∀ result, parse line = result ↔ Reading (Text.codeWords line) result) ∧
    ∀ (i : Instruction) (before between after comment : List Char), i.IsWritable →
      (∀ c ∈ before, Text.isBlank c = true) → (∀ c ∈ between, Text.isBlank c = true) →
        between ≠ [] →
      (∀ c ∈ after, Text.isBlank c = true) → Text.IsComment comment →
      parse (i.laidOut before between after comment) = .ok (some i) := by
  refine ⟨fun line => ⟨?_, fun words holds => ?_, fun result => ⟨?_, parse_of_reading rfl⟩⟩, ?_⟩
  · rw [Text.codeWords_eq, Text.map_toList_map_ofList]
    exact Text.holds_words line.toList
  · rw [holds.codeWords_eq, Text.map_toList_map_ofList]
  · rintro rfl
    exact reading_of_parse line
  · intro i before between after comment writable hbefore hbetween ne hafter hcomment
    exact parse_of_codeWords writable
      (codeWords_laidOut writable hbefore hbetween ne hafter hcomment)

/-- An instruction with blanks that are no spaces around its words and a comment that looks like
code, and a line on which a value that is not allowed is followed by one more word. -/
theorem parse_follows_rules_at_unusual_blanks :
    let i : Instruction := ⟨.push, some ⟨.int8, "-0042"⟩⟩
    let comment := ";; push int8(1)".toList
    i.IsWritable ∧ parse (i.laidOut ['\u2003'] ['\u00a0', '\t'] ['\x0b'] comment) = .ok (some i) ∧
      parse "pop int8(x 1 ; 2" = .error (.malformedValue "1") := by
  intro i comment
  have writable : i.IsWritable := ⟨rfl, fun l hl => ⟨l, by cases hl; rfl⟩⟩
  have extra : Reading [Opcode.pop.mnemonic, "int8(x", "1"] (.error (.malformedValue "1")) := .extra
  refine ⟨writable, ?_, ?_⟩
  · have before : ∀ c ∈ ['\u2003'], Text.isBlank c = true := List.forall_mem_singleton.mpr rfl
    have between : ∀ c ∈ ['\u00a0', '\t'], Text.isBlank c = true :=
      List.forall_mem_cons.mpr ⟨rfl, List.forall_mem_singleton.mpr rfl⟩
    have after : ∀ c ∈ ['\x0b'], Text.isBlank c = true := List.forall_mem_singleton.mpr rfl
    exact parse_follows_rules.2 i _ _ _ _ writable before between (by decide) after (.inr ⟨_, rfl⟩)
  · exact ((parse_follows_rules.1 "pop int8(x 1 ; 2").2.2 _).mpr extra

end Instruction

end TypedStack
