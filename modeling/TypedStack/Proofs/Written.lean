import TypedStack.Proofs.Lines
import TypedStack.Proofs.Parsing
import TypedStack.Proofs.Words

/-!
# Written instructions

How an instruction is written as a line of a program, and that the line is read as the instruction
again. A literal is read back as it was written because the name of its kind has no parenthesis, and
it is one word of the line because an accepted literal holds neither blanks nor a semicolon.
-/

namespace TypedStack

/-- How a literal is written. -/
def Literal.written (l : Literal) : String := l.kind.name ++ "(" ++ l.text ++ ")"

namespace Instruction

/-- The words of a written instruction. -/
def words (i : Instruction) : List String :=
  i.opcode.mnemonic :: (i.literal.map Literal.written).toList

/-- How an instruction is written: the mnemonic and, behind a space, the literal if there is one. -/
def written (i : Instruction) : String :=
  match i.literal with
  | none => i.opcode.mnemonic
  | some l => i.opcode.mnemonic ++ " " ++ l.written

/-- The text of a program, one line for each instruction. -/
def text (is : List Instruction) : String := String.join (is.map fun i => i.written ++ "\n")

/-- The instruction carries a literal exactly if its operation takes one, and its literal is
accepted where it is written. -/
structure IsWritable (i : Instruction) : Prop where
  carries : i.literal.isSome = i.opcode.takesLiteral
  accepted : ∀ l, i.literal = some l → ∃ l', Literal.parse l.written = .ok l'

end Instruction

namespace Literal

variable {name digits : List Char}

/-- What was put in parentheses is found again. -/
lemma splitParens?_append (hname : '(' ∉ name) :
    splitParens? (name ++ '(' :: (digits ++ [')'])) = some (name, digits) := by
  have plain : ∀ c ∈ name, (c != '(') = true := by
    intro c hc
    refine bne_iff_ne.mpr ?_
    rintro rfl
    exact hname hc
  simp [splitParens?, List.takeWhile_append_of_pos plain, List.dropWhile_append_of_pos plain]

/-- What is found in parentheses was put there. -/
lemma eq_append_of_splitParens? {word : List Char} (h : splitParens? word = some (name, digits)) :
    word = name ++ '(' :: (digits ++ [')']) := by
  have parts := List.takeWhile_append_dropWhile (p := (· != '(')) (l := word)
  have paren := List.head?_dropWhile_not (· != '(') word
  unfold splitParens? at h
  split at h
  · cases h
  · next c rest hrest =>
    split at h
    · next last =>
      cases h
      rw [hrest] at parts paren
      have hc : c = '(' := by simpa using paren
      obtain ⟨inside, rfl⟩ := List.getLast?_eq_some_iff.mp last
      rw [hc] at parts
      rw [List.dropLast_concat, parts]
    · cases h

/-- A literal is written as its kind, with its digits in parentheses. -/
lemma toList_written (l : Literal) :
    l.written.toList = l.kind.name.toList ++ '(' :: (l.text.toList ++ [')']) := by
  simp [written]

/-- A written literal is found again if its digits are of the form. -/
lemma ofWord?_written (l : Literal) :
    ofWord? l.written = if isWritten l.kind l.text.toList then some l else none := by
  have hname : '(' ∉ l.kind.name.toList := by
    rcases l.kind with ⟨_ | _ | _⟩ | ⟨_ | _⟩ <;> decide
  rw [ofWord?, toList_written, splitParens?_append hname, Option.bind_some]
  simp only [String.ofList_toList, Kind.ofName?_name, Option.bind_some]

/-- A word is a literal if it is written as one. -/
lemma ofWord?_eq_some_iff {word : String} {l : Literal} :
    ofWord? word = some l ↔ word = l.written ∧ isWritten l.kind l.text.toList = true := by
  constructor
  · intro h
    obtain ⟨⟨name, digits⟩, parens, h⟩ := Option.bind_eq_some_iff.mp h
    obtain ⟨kind, hkind, h⟩ := Option.bind_eq_some_iff.mp h
    split at h
    · next written =>
      cases h
      refine ⟨String.toList_inj.mp ?_, ?_⟩
      · rw [toList_written, Kind.name_of_ofName? hkind, String.toList_ofList, String.toList_ofList]
        exact eq_append_of_splitParens? parens
      · rw [String.toList_ofList]
        exact written
    · cases h
  · rintro ⟨rfl, written⟩
    rw [ofWord?_written, if_pos written]

/-- An accepted literal is the one that was written, and it is written as its kind requires. -/
lemma parse_written {l l' : Literal} (h : parse l.written = .ok l') :
    l' = l ∧ isWritten l.kind l.text.toList = true := by
  rw [parse, ofWord?_written] at h
  cases hw : isWritten l.kind l.text.toList with
  | false =>
    rw [hw] at h
    cases h
  | true =>
    rw [hw] at h
    simp only [if_true] at h
    split at h
    · cases h
      exact ⟨rfl, rfl⟩
    · cases h

/-- Digits without a sign, as a value of the kind requires them. -/
def isUnsigned (kind : Kind) (magnitude : List Char) : Bool :=
  match magnitude.dropWhile (· != '.') with
  | [] => Numeral.isDigits (magnitude.takeWhile (· != '.'))
  | _ :: fraction =>
    !kind.isInteger && Numeral.isDigits (magnitude.takeWhile (· != '.')) && Numeral.isDigits
      fraction

/-- Written digits have at most one sign, a minus. -/
lemma exists_isUnsigned {kind : Kind} (h : isWritten kind digits = true) :
    ∃ sign magnitude, (sign = [] ∨ sign = ['-']) ∧ digits = sign ++ magnitude ∧
      isUnsigned kind magnitude = true := by
  unfold isWritten at h
  split at h
  · exact ⟨['-'], _, .inr rfl, rfl, h⟩
  · exact ⟨[], digits, .inl rfl, rfl, h⟩

/-- Digits without a sign are a run of digits and may have a fraction. -/
lemma isUnsigned_shape {kind : Kind} {magnitude : List Char}
    (h : isUnsigned kind magnitude = true) :
    ∃ whole, Numeral.isDigits whole = true ∧
      (magnitude = whole ∨
        kind.isInteger = false ∧
          ∃ fraction, Numeral.isDigits fraction = true ∧ magnitude = whole ++ '.' :: fraction) := by
  have parts := List.takeWhile_append_dropWhile (p := (· != '.')) (l := magnitude)
  have point := List.head?_dropWhile_not (· != '.') magnitude
  unfold isUnsigned at h
  cases hrest : magnitude.dropWhile (· != '.') with
  | nil =>
    rw [hrest] at h parts
    rw [List.append_nil] at parts
    exact ⟨_, h, .inl parts.symm⟩
  | cons c fraction =>
    rw [hrest] at h parts point
    have hc : c = '.' := by simpa using point
    simp only [Bool.and_eq_true, Bool.not_eq_true'] at h
    subst hc
    exact ⟨_, h.1.2, .inr ⟨h.1.1, fraction, h.2, parts.symm⟩⟩

/-- The characters of which numbers are written. -/
def isNumeric (c : Char) : Bool := c.isDigit || c == '-' || c == '.'

/-- Digits are of the characters of numbers. -/
lemma isNumeric_of_isDigits {cs : List Char} (h : Numeral.isDigits cs = true) :
    ∀ c ∈ cs, isNumeric c = true := by
  simp only [Numeral.isDigits, Bool.and_eq_true, List.all_eq_true] at h
  intro c hc
  simp [isNumeric, h.2 c hc]

/-- The form of a literal has only characters of numbers. -/
lemma isNumeric_of_isWritten {kind : Kind} (h : isWritten kind digits = true) :
    ∀ c ∈ digits, isNumeric c = true := by
  obtain ⟨sign, magnitude, hsign, rfl, unsigned⟩ := exists_isUnsigned h
  intro c hc
  rcases List.mem_append.mp hc with hc | hc
  · rcases hsign with rfl | rfl
    · cases hc
    · rw [List.mem_singleton.mp hc]
      rfl
  · obtain ⟨whole, hwhole, rfl | ⟨-, fraction, hfraction, rfl⟩⟩ := isUnsigned_shape unsigned
    · exact isNumeric_of_isDigits hwhole c hc
    · rcases List.mem_append.mp hc with hc | hc
      · exact isNumeric_of_isDigits hwhole c hc
      · rcases List.mem_cons.mp hc with rfl | hc
        · rfl
        · exact isNumeric_of_isDigits hfraction c hc

end Literal

/-! ## Words of code -/

/-- A word in which no comment starts. -/
structure Text.IsCode (w : List Char) : Prop extends IsWord w where
  no_comment : ';' ∉ w

/-- Without a comment, the words of the code are the words of the line. -/
lemma Text.codeWords_of_no_comment {line : String} (h : ';' ∉ line.toList) :
    codeWords line = (words line.toList).map String.ofList := by
  have code : line.toList.takeWhile (· != ';') = line.toList := by
    refine List.takeWhile_eq_self_iff.mpr fun c hc => bne_iff_ne.mpr ?_
    rintro rfl
    exact h hc
  rw [codeWords, code]

/-- A mnemonic is a word of code. -/
lemma Opcode.isCode_mnemonic (op : Opcode) : Text.IsCode op.mnemonic.toList := by
  rcases op with _ | _ | _ | _ | ⟨_ | _ | _ | _ | _⟩ | _ | _ <;> exact ⟨.of_all rfl rfl, by decide⟩

/-- The name of a kind is a word of code. -/
lemma Kind.isCode_name (k : Kind) : Text.IsCode k.name.toList := by
  rcases k with ⟨_ | _ | _⟩ | ⟨_ | _⟩ <;> exact ⟨.of_all rfl rfl, by decide⟩

/-- A character of a number is no blank. -/
lemma Literal.not_blank_of_isNumeric {c : Char} (h : isNumeric c = true) :
    Text.isBlank c = false := by
  simp only [isNumeric, Bool.or_eq_true, beq_iff_eq] at h
  rcases h with (digit | rfl) | rfl
  · obtain ⟨low, high⟩ := Char.isDigit_iff_toNat.mp digit
    -- the code points of the digits lie between the blanks below 33 and those above 132
    have low : 48 ≤ c.toNat := low
    have high : c.toNat ≤ 57 := high
    simp only [Text.isBlank, Text.blankRanges, List.any_cons, List.any_nil, Bool.or_false,
      Bool.or_eq_false_iff, Bool.and_eq_false_iff, decide_eq_false_iff_not]
    omega
  · rfl
  · rfl

/-- An accepted literal is written as one word. -/
lemma Literal.isCode_written {l l' : Literal} (h : parse l.written = .ok l') :
    Text.IsCode l.written.toList := by
  have numeric := isNumeric_of_isWritten (parse_written h).2
  have name := l.kind.isCode_name
  rw [toList_written]
  refine ⟨⟨?_, ?_⟩, ?_⟩
  · simp
  · intro c hc
    simp only [List.mem_append, List.mem_cons, List.not_mem_nil, or_false] at hc
    rcases hc with hc | rfl | hc | rfl
    · exact name.not_blank c hc
    · rfl
    · exact not_blank_of_isNumeric (numeric c hc)
    · rfl
  · intro hc
    simp only [List.mem_append, List.mem_cons, List.not_mem_nil, or_false] at hc
    rcases hc with hc | hc | hc | hc
    · exact name.no_comment hc
    · cases hc
    · cases numeric ';' hc
    · cases hc

namespace Instruction

variable {i : Instruction}

/-- A line with the words of a writable instruction is read as that instruction. -/
lemma parse_of_codeWords (h : i.IsWritable) {line : String}
    (hwords : Text.codeWords line = i.words) :
    parse line = .ok (some i) := by
  obtain ⟨opcode, literal⟩ := i
  simp only [parse, hwords, words, Opcode.ofMnemonic?_mnemonic]
  cases literal with
  | none =>
    have takes : opcode.takesLiteral = false := h.carries.symm
    simp [parseArguments, takes, Except.map]
  | some l =>
    have takes : opcode.takesLiteral = true := h.carries.symm
    obtain ⟨l', accepted⟩ := h.accepted l rfl
    obtain ⟨rfl, -⟩ := Literal.parse_written accepted
    simp [parseArguments, takes, accepted, Except.map]

/-- A written instruction is its mnemonic, or its mnemonic and its literal behind a space, and both
are words. -/
lemma toList_written (h : i.IsWritable) :
    (i.written.toList = i.opcode.mnemonic.toList ∧ i.words = [i.opcode.mnemonic]) ∨
      ∃ l : Literal, Text.IsCode l.written.toList ∧
        i.written.toList = i.opcode.mnemonic.toList ++ ' ' :: l.written.toList ∧
        i.words = [i.opcode.mnemonic, l.written] := by
  obtain ⟨opcode, literal⟩ := i
  cases literal with
  | none => exact .inl ⟨rfl, rfl⟩
  | some l =>
    obtain ⟨l', accepted⟩ := h.accepted l rfl
    exact .inr ⟨l, Literal.isCode_written accepted, by simp [written], rfl⟩

/-- There is no comment in a written instruction. -/
lemma no_comment_written (h : i.IsWritable) : ';' ∉ i.written.toList := by
  have mnemonic := i.opcode.isCode_mnemonic
  rcases toList_written h with ⟨hi, -⟩ | ⟨l, literal, hi, -⟩
  · rw [hi]
    exact mnemonic.no_comment
  · rw [hi]
    simp [mnemonic.no_comment, literal.no_comment]

/-- There is no newline in a written instruction. -/
lemma newline_not_mem_written (h : i.IsWritable) : '\n' ∉ i.written.toList := by
  have absent {w : List Char} (hw : Text.IsCode w) : '\n' ∉ w := fun mem => by
    cases hw.not_blank _ mem
  rcases toList_written h with ⟨hi, -⟩ | ⟨l, literal, hi, -⟩
  · rw [hi]
    exact absent i.opcode.isCode_mnemonic
  · rw [hi]
    simp [absent i.opcode.isCode_mnemonic, absent literal]

/-- The line of a written instruction has the words of the instruction. -/
lemma codeWords_written (h : i.IsWritable) : Text.codeWords (i.written ++ "\n") = i.words := by
  have comment : ';' ∉ (i.written ++ "\n").toList := by simpa using no_comment_written h
  rw [Text.codeWords_of_no_comment comment, String.toList_append]
  have line : Text.words (i.written.toList ++ "\n".toList) = Text.words i.written.toList :=
    (Text.words_append_blank _ [] rfl).trans (List.append_nil _)
  have mnemonic := Text.words_of_isWord i.opcode.isCode_mnemonic.toIsWord
  rw [line]
  rcases toList_written h with ⟨hi, hwords⟩ | ⟨l, literal, hi, hwords⟩
  · rw [hi, hwords, mnemonic, List.map_singleton, String.ofList_toList]
  · rw [hi, hwords, Text.words_append_blank _ _ rfl, mnemonic,
      Text.words_of_isWord literal.toIsWord]
    simp

/-- The line of a writable instruction is read as the instruction. -/
theorem parse_written (h : i.IsWritable) : parse (i.written ++ "\n") = .ok (some i) :=
  parse_of_codeWords h (codeWords_written h)

end Instruction

end TypedStack
