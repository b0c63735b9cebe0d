import Mathlib.Data.List.Forall2
import Mathlib.Logic.Relation
import TypedStack.Proofs.Alike
import TypedStack.Proofs.Written

/-!
# Layout

How the words of a line are spaced, and what stands in its comment, makes no difference.
`Text.Spaced` and `Text.Holds` say which texts and lines hold given words, and two texts whose lines
hold the same words read alike. Edits of the layout, such as other line endings, other blanks and
other comments, keep the words.
-/

namespace TypedStack

namespace Text

/-- The text consists of the words in their order, with blanks between any two of them and perhaps
around them. -/
inductive Spaced : List (List Char) → List Char → Prop where
  | nil {bs : List Char} : (∀ c ∈ bs, isBlank c = true) → Spaced [] bs
  | last {bs w : List Char} : (∀ c ∈ bs, isBlank c = true) → IsWord w → Spaced [w] (bs ++ w)
  | cons {bs w cs : List Char} {b : Char} {ws : List (List Char)} :
    (∀ c ∈ bs, isBlank c = true) → IsWord w → isBlank b = true → Spaced ws cs →
      Spaced (w :: ws) (bs ++ w ++ b :: cs)

/-- A comment, or nothing. -/
def IsComment (cs : List Char) : Prop := cs = [] ∨ ∃ text, cs = ';' :: text

/-- The line holds the words, and a comment may follow them. -/
def Holds (words : List (List Char)) (line : List Char) : Prop :=
  ∃ code comment, line = code ++ comment ∧ ';' ∉ code ∧ IsComment comment ∧ Spaced words code

/-- The line can be read and holds the words. -/
def IsLineOf (words : List (List Char)) (line : List UInt8) : Prop :=
  ∃ text, decode? line = some text ∧ Holds words text.toList

/-- The texts have equally many lines, all of which can be read, and lines with the same number hold
the same words. -/
def SameWords (bytes bytes' : List UInt8) : Prop :=
  List.Forall₂ (fun line line' => ∃ words, IsLineOf words line ∧
    IsLineOf words line') (lines bytes) (lines bytes')

namespace Spaced

variable {ws : List (List Char)} {cs : List Char} {b : Char}

/-- A blank can be put in front. -/
lemma cons_blank (hb : isBlank b = true) (spaced : Spaced ws cs) : Spaced ws (b :: cs) := by
  have more {bs : List Char} (blanks : ∀ c ∈ bs, isBlank c = true) :
      ∀ c ∈ b :: bs, isBlank c = true := by
    simpa [hb] using blanks
  cases spaced with
  | nil blanks => exact .nil (more blanks)
  | last blanks hw => exact .last (more blanks) hw
  | cons blanks hw hb' rest => exact .cons (more blanks) hw hb' rest

/-- The words between blanks are the words. -/
lemma words_eq (spaced : Spaced ws cs) : words cs = ws := by
  induction spaced with
  | nil blanks => exact words_of_blanks blanks
  | last blanks hw => rw [words_blanks_append _ blanks, words_of_isWord hw]
  | cons blanks hw hb _ ih =>
    rw [words_append_blank _ _ hb, words_blanks_append _ blanks, words_of_isWord hw, ih]
    rfl

end Spaced

/-- Every text is spaced, with its words. -/
lemma spaced_words (cs : List Char) : Spaced (words cs) cs := by
  -- by the length, because a word is taken off as a whole
  induction h : cs.length using Nat.strongRecOn generalizing cs with
  | ind n ih =>
    subst h
    cases cs with
    | nil => exact .nil nofun
    | cons b cs =>
      cases hb : isBlank b with
      | true =>
        rw [words_cons_blank cs hb]
        exact (ih cs.length (Nat.lt_succ_self _) cs rfl).cons_blank hb
      | false =>
        obtain ⟨w, hw, shape | ⟨c, ds, hc, shape⟩⟩ := exists_isWord cs hb
        · have spaced : Spaced [w] ([] ++ w) := .last nofun hw
          rw [shape, words_of_isWord hw]
          exact spaced
        · have shorter : ds.length < (b :: cs).length := by
            rw [shape, List.length_append, List.length_cons]
            omega
          have spaced : Spaced (w :: words ds) ([] ++ w ++ c :: ds) :=
            .cons nofun hw hc (ih ds.length shorter ds rfl)
          rw [shape, words_append_blank w ds hc, words_of_isWord hw]
          exact spaced

/-! ### Lines and their code -/

/-- What stands before the comment of a line. -/
def code (line : List Char) : List Char := line.takeWhile (· != ';')

/-- The words of a line are those before its comment. -/
lemma codeWords_eq (line : String) :
    codeWords line = (words (code line.toList)).map String.ofList := rfl

variable {pre cs : List Char}

/-- What is behind the beginning of a comment makes no difference. -/
lemma code_append_of_mem (comment : ';' ∈ pre) (cs : List Char) : code (pre ++ cs) = code pre := by
  induction pre with
  | nil => cases comment
  | cons c pre ih =>
    by_cases hc : c = ';'
    · simp [code, hc]
    · have ih := ih ((List.mem_cons.mp comment).resolve_left fun h => hc h.symm)
      simpa [code, hc] using ih

/-- What is before the beginning of a comment is code. -/
lemma code_append_of_not_mem (none : ';' ∉ pre) (cs : List Char) :
    code (pre ++ cs) = pre ++ code cs := by
  refine List.takeWhile_append_of_pos fun c hc => bne_iff_ne.mpr ?_
  rintro rfl
  exact none hc

/-- A line without a comment is code. -/
lemma code_of_not_mem (none : ';' ∉ cs) : code cs = cs := by
  have append := code_append_of_not_mem none []
  rw [List.append_nil] at append
  exact append.trans (List.append_nil cs)

/-- A comment has no code in it. -/
lemma code_of_isComment (comment : IsComment cs) : code cs = [] := by
  obtain rfl | ⟨text, rfl⟩ := comment
  · rfl
  · simp [code]

/-- A blank in front is code. -/
lemma code_blank {b : Char} (hb : isBlank b = true) (cs : List Char) :
    code (b :: cs) = b :: code cs := by
  have hc : b ≠ ';' := by
    rintro rfl
    cases hb
  simp [code, hc]

/-- A line that holds words has these words in its code. -/
lemma Holds.codeWords_eq {ws : List (List Char)} {line : String} (holds : Holds ws line.toList) :
    codeWords line = ws.map String.ofList := by
  obtain ⟨code, comment, h, none, isComment, spaced⟩ := holds
  rw [Text.codeWords_eq, h, code_append_of_not_mem none, code_of_isComment isComment,
    List.append_nil, spaced.words_eq]

/-- Every line holds the words of its code. -/
lemma holds_words (line : List Char) : Holds (words (code line)) line := by
  refine ⟨code line, line.dropWhile (· != ';'), List.takeWhile_append_dropWhile.symm, ?_, ?_,
    spaced_words _⟩
  · intro mem
    cases List.mem_takeWhile_imp mem
  · cases h : line.dropWhile (· != ';') with
    | nil => exact .inl rfl
    | cons c text =>
      have first := List.head?_dropWhile_not (· != ';') line
      rw [h] at first
      have hc : c = ';' := by simpa using first
      exact .inr ⟨text, by rw [hc]⟩

/-! ### Edits of the layout -/

/-- Edits of a line that touch its layout only: another blank for a blank, one more blank beside a
blank or at the ends of the line, and another comment before the blanks that end the line. -/
inductive Edit : List Char → List Char → Prop where
  | replace {pre post : List Char} {b b' : Char} :
    isBlank b = true → isBlank b' = true → Edit (pre ++ b :: post) (pre ++ b' :: post)
  | insert {pre post : List Char} {b b' : Char} :
    isBlank b = true → isBlank b' = true → Edit (pre ++ b :: post) (pre ++ b' :: b :: post)
  | indent {cs : List Char} {b : Char} : isBlank b = true → Edit cs (b :: cs)
  | trail {cs : List Char} {b : Char} : isBlank b = true → Edit cs (cs ++ [b])
  | comment {cs old new blanks : List Char} :
    IsComment old → IsComment new → (∀ c ∈ blanks, isBlank c = true) →
      Edit (cs ++ old ++ blanks) (cs ++ new ++ blanks)

/-- The texts have equally many lines, all of which can be read, and lines with the same number
become each other by edits of the layout, made or undone. -/
def Relaid (bytes bytes' : List UInt8) : Prop :=
  List.Forall₂ (fun line line' => ∃ text text', decode? line = some text ∧
    decode? line' = some text' ∧
    Relation.EqvGen Edit text.toList text'.toList) (lines bytes) (lines bytes')

/-- At a blank, the words of the code can be counted in two parts. -/
lemma words_code_append_blank (pre post : List Char) {b : Char} (hb : isBlank b = true) :
    words (code (pre ++ b :: post)) =
      if ';' ∈ pre then words (code pre) else words pre ++ words (code post) := by
  by_cases comment : ';' ∈ pre
  · rw [if_pos comment, code_append_of_mem comment]
  · rw [if_neg comment, code_append_of_not_mem comment, code_blank hb, words_append_blank _ _ hb]

/-- Neither a comment nor the blanks behind it add a word. -/
lemma words_code_comment {old blanks : List Char} (cs : List Char) (isComment : IsComment old)
    (hblanks : ∀ c ∈ blanks, isBlank c = true) :
    words (code (cs ++ old ++ blanks)) = words (code cs) := by
  have noComment : ';' ∉ blanks := fun mem => by cases hblanks ';' mem
  rw [List.append_assoc]
  by_cases comment : ';' ∈ cs
  · rw [code_append_of_mem comment]
  · rw [code_append_of_not_mem comment, code_of_not_mem comment]
    obtain rfl | ⟨text, rfl⟩ := isComment
    · rw [List.nil_append, code_of_not_mem noComment, words_append_blanks _ hblanks]
    · rw [List.cons_append, code_of_isComment (.inr ⟨_, rfl⟩), List.append_nil]

/-- Edits of the layout keep the words. -/
lemma Edit.words_eq {line line' : List Char} (edit : Edit line line') :
    words (code line) = words (code line') := by
  cases edit with
  | replace hb hb' => rw [words_code_append_blank _ _ hb, words_code_append_blank _ _ hb']
  | insert hb hb' =>
    rw [words_code_append_blank _ _ hb, words_code_append_blank _ _ hb', code_blank hb,
      words_cons_blank _ hb]
  | indent hb => rw [code_blank hb, words_cons_blank _ hb]
  | trail hb =>
    have whole := words_code_comment line (.inl rfl) (List.forall_mem_singleton.mpr hb)
    rw [List.append_nil] at whole
    exact whole.symm
  | comment old new blanks => rw [words_code_comment _ old blanks, words_code_comment _ new blanks]

/-- Any number of edits keep the words. -/
lemma words_eq_of_edits {line line' : List Char} (edits : Relation.EqvGen Edit line line') :
    words (code line) = words (code line') := by
  induction edits with
  | rel _ _ edit => exact edit.words_eq
  | refl _ => rfl
  | symm _ _ _ ih => exact ih.symm
  | trans _ _ _ _ _ ih ih' => exact ih.trans ih'

/-- A text that is laid out anew has the same words. -/
lemma Relaid.sameWords {bytes bytes' : List UInt8} (relaid : Relaid bytes bytes') :
    SameWords bytes bytes' := by
  refine List.Forall₂.imp ?_ relaid
  rintro line line' ⟨text, text', h, h', edits⟩
  have holds := holds_words text.toList
  refine ⟨_, ⟨text, h, holds⟩, text', h', ?_⟩
  rw [words_eq_of_edits edits]
  exact holds_words text'.toList

/-! ### Line endings -/

/-- The bytes with a carriage return before every newline. -/
def crlf (bytes : List UInt8) : List UInt8 :=
  bytes.flatMap fun b => if b = newline then [13, newline] else [b]

/-- A byte that is no newline stays. -/
lemma crlf_cons {b : UInt8} (hb : b ≠ newline) (bs : List UInt8) :
    crlf (b :: bs) = b :: crlf bs := by
  simp [crlf, hb]

/-- A newline gets a carriage return before it. -/
lemma crlf_newline (bs : List UInt8) : crlf (newline :: bs) = 13 :: newline :: crlf bs := by
  simp [crlf]

/-- The lines of the result are the lines, each changed for itself. -/
lemma lines_crlf (bytes : List UInt8) : lines (crlf bytes) = (lines bytes).map crlf := by
  induction bytes with
  | nil => rfl
  | cons b bs ih =>
    by_cases hb : b = newline
    · subst hb
      have first : (13 : UInt8) ≠ newline := by decide
      rw [crlf_newline, lines, if_neg first, lines, if_pos rfl, lines, if_pos rfl, List.map_cons,
        ← ih]
      rfl
    · rw [crlf_cons hb, lines, if_neg hb, lines, if_neg hb, ih]
      cases lines bs with
      | nil => rw [List.map_nil, List.map_singleton, crlf_cons hb]; rfl
      | cons line rest => rw [List.map_cons, List.map_cons, crlf_cons hb]

/-- Bytes without newlines stay. -/
lemma crlf_of_no_newline {bytes : List UInt8} (plain : ∀ b ∈ bytes, b ≠ newline) :
    crlf bytes = bytes := by
  induction bytes with
  | nil => rfl
  | cons b bs ih =>
    rw [crlf_cons (plain b List.mem_cons_self), ih fun b hb => plain b (List.mem_cons_of_mem _ hb)]

/-- Parts are changed for themselves. -/
lemma crlf_append (bytes bytes' : List UInt8) :
    crlf (bytes ++ bytes') = crlf bytes ++ crlf bytes' :=
  List.flatMap_append

/-- The characters with a carriage return before every newline. -/
def crlfChars (cs : List Char) : List Char :=
  cs.flatMap fun c => if c = '\n' then ['\r', '\n'] else [c]

/-- The change of the bytes of a character is a change of the character. -/
lemma crlf_utf8EncodeChar (c : Char) :
    crlf (String.utf8EncodeChar c) = (crlfChars [c]).flatMap String.utf8EncodeChar := by
  by_cases hc : c = '\n'
  · subst hc
    decide
  · have plain : ∀ b ∈ String.utf8EncodeChar c, b ≠ newline := by
      rintro b hb rfl
      exact hc (eq_of_newline_mem_utf8EncodeChar hb)
    rw [crlf_of_no_newline plain]
    simp [crlfChars, hc]

/-- The change of the bytes of a text is a change of its characters. -/
lemma crlf_encode (text : String) :
    crlf (encode text) = encode (String.ofList (crlfChars text.toList)) := by
  rw [encode_eq_flatMap, encode_eq_flatMap, String.toList_ofList]
  induction text.toList with
  | nil => rfl
  | cons c cs ih =>
    have chars : crlfChars (c :: cs) = crlfChars [c] ++ crlfChars cs := by simp [crlfChars]
    rw [List.flatMap_cons, crlf_append, crlf_utf8EncodeChar, ih, chars, List.flatMap_append]

/-- A carriage return before a newline is one more blank. -/
lemma edits_crlfChars (pre cs : List Char) :
    Relation.EqvGen Edit (pre ++ cs) (pre ++ crlfChars cs) := by
  induction cs generalizing pre with
  | nil => exact .refl _
  | cons c cs ih =>
    by_cases hc : c = '\n'
    · subst hc
      have ih := ih (pre ++ ['\r', '\n'])
      rw [List.append_assoc, List.append_assoc] at ih
      exact .trans _ _ _ (.rel _ _ (.insert rfl rfl)) ih
    · have ih := ih (pre ++ [c])
      rw [List.append_assoc, List.append_assoc] at ih
      simpa [crlfChars, hc] using ih

/-- A readable text with carriage returns put in is laid out anew. -/
lemma relaid_crlf {bytes : List UInt8}
    (readable : ∀ line ∈ lines bytes, ∃ text, decode? line = some text) :
    Relaid bytes (crlf bytes) := by
  rw [Relaid, lines_crlf, List.forall₂_map_right_iff, List.forall₂_same]
  intro line hl
  obtain ⟨text, h⟩ := readable line hl
  refine ⟨text, String.ofList (crlfChars text.toList), h, ?_, ?_⟩
  · rw [← encode_of_decode? h, crlf_encode, decode?_encode]
  · rw [String.toList_ofList]
    exact edits_crlfChars [] text.toList

end Text

/-! ### Texts with the same words -/

/-- What a line means depends on its words only. -/
lemma Instruction.parse_congr {line line' : String}
    (h : Text.codeWords line = Text.codeWords line') :
    parse line = parse line' := by
  simp only [parse, h]

/-- Lines of the same words mean the same in a file. -/
lemma LineMeaning.ofLine_of_words {words : List (List Char)} {line line' : List UInt8}
    (h : Text.IsLineOf words line) (h' : Text.IsLineOf words line') :
    ofLine .file line = ofLine .file line' := by
  obtain ⟨text, decoded, holds⟩ := h
  obtain ⟨text', decoded', holds'⟩ := h'
  have parsed := Instruction.parse_congr (holds.codeWords_eq.trans holds'.codeWords_eq.symm)
  simp [ofLine, decoded, decoded', parsed]

/-- Texts of the same words read alike. -/
lemma Listing.alike_of_sameWords {bytes bytes' : List UInt8} (same : Text.SameWords bytes bytes') :
    Alike (ofBytes .file bytes) (ofBytes .file bytes') := by
  have lines : List.Forall₂ Eq (meanings .file bytes) (meanings .file bytes') := by
    rw [meanings, meanings, List.forall₂_map_left_iff, List.forall₂_map_right_iff]
    refine List.Forall₂.imp (fun line line' held => ?_) same
    obtain ⟨words, h, h'⟩ := held
    exact LineMeaning.ofLine_of_words h h'
  rw [List.forall₂_eq_eq_eq] at lines
  exact ⟨rfl, congrArg (answersFrom 0) lines, congrArg (endFrom 0) lines⟩

/-- Two texts with equally many lines, all of which can be read, give the same answers with the same
line numbers if lines with the same number hold the same words before their comments; machines over
them then make the same runs, with the same output, report and stack. Lines go on holding the same
words under edits of the layout: other blanks, more or fewer blanks, and other comments. One such
edit is a carriage return before every newline. -/
theorem runs_of_same_words {σ τ : Type} [Sink σ] [Sink τ] (bytes bytes' : List UInt8) :
    (Text.SameWords bytes bytes' →
      (∀ count, Listing.pulls count (.ofBytes .file bytes) =
        Listing.pulls count (.ofBytes .file bytes')) ∧
      ∀ limit count (out : σ) (err : τ),
        (Machine.runs count (.start (.listing (.ofBytes .file bytes)) limit) out err).map observe =
          (Machine.runs count (.start (.listing (.ofBytes .file bytes')) limit) out err).map
          observe) ∧
    (Text.Relaid bytes bytes' → Text.SameWords bytes bytes') ∧
    ((∀ line ∈ Text.lines bytes, ∃ text, Text.decode? line = some text) →
      Text.Relaid bytes (Text.crlf bytes)) := by
  refine ⟨fun same => ?_, Text.Relaid.sameWords, Text.relaid_crlf⟩
  have alike := Listing.alike_of_sameWords same
  exact ⟨alike.pulls, Machine.runs_of_alike alike⟩

end TypedStack
