import TypedStack.Proofs.Layout
import TypedStack.Proofs.Loading
import TypedStack.Proofs.Rebuilding

/-!
# Reports of failures

A run over a text reports its failure in one line, whatever the text. The wording of an error has no
newlines of its own, so it depends on the texts that the error quotes: words of the program, which
have no blanks and so no newlines, texts of operands, which have none either, and the reasons that
devices give.
-/

namespace TypedStack

/-- There is no newline in the text. -/
def Text.IsPlain (text : String) : Prop := '\n' ∉ text.toList

instance (text : String) : Decidable (Text.IsPlain text) :=
  inferInstanceAs (Decidable ('\n' ∉ text.toList))

namespace Error

/-- The texts that an error repeats: from the program, from the stack or from a device. -/
def quoted : Error → List String
  | assertionFailed expected actual => expected :: actual.toList
  | invalidLiteral _ text | literalOutOfRange _ text => [text]
  | unknownInstruction word | malformedValue word => [word]
  | device reason => [reason]
  | _ => []

/-- None of the texts that the error repeats has a newline. -/
def QuotesPlainly (e : Error) : Prop := ∀ text ∈ e.quoted, Text.IsPlain text

/-- An error that repeats no text repeats no newline. -/
lemma quotesPlainly_of_nil {e : Error} (none : e.quoted = []) : e.QuotesPlainly := by
  rw [QuotesPlainly, none]
  exact List.forall_mem_nil _

/-- An error that repeats one text repeats no newline if there is none in it. -/
lemma quotesPlainly_of_singleton {e : Error} {text : String} (one : e.quoted = [text])
    (plain : Text.IsPlain text) :
    e.QuotesPlainly := by
  rw [QuotesPlainly, one]
  exact List.forall_mem_singleton.mpr plain

end Error

/-! ## Wording -/

namespace Text

/-- Texts without newlines make a text without newlines. -/
lemma IsPlain.append {s t : String} (hs : IsPlain s) (ht : IsPlain t) : IsPlain (s ++ t) := by
  rw [IsPlain, String.toList_append, List.mem_append, not_or]
  exact ⟨hs, ht⟩

/-- A word has no newline in it. -/
lemma IsWord.newline_not_mem {w : List Char} (word : IsWord w) : '\n' ∉ w := by
  intro mem
  cases word.not_blank '\n' mem

/-- The digits of a number have no newline in them. -/
lemma isPlain_toString (n : Nat) : IsPlain (toString n) := by
  have digits : (toString n).toList = Nat.toDigits 10 n := String.toList_ofList
  rw [IsPlain, digits]
  exact Decimal.newline_not_mem_toDigits n

end Text

/-- The name of a kind has no newline in it. -/
lemma Kind.isPlain_name (kind : Kind) : Text.IsPlain kind.name :=
  kind.isCode_name.toIsWord.newline_not_mem

/-- A mnemonic has no newline in it. -/
lemma Opcode.isPlain_mnemonic (op : Opcode) : Text.IsPlain op.mnemonic :=
  op.isCode_mnemonic.toIsWord.newline_not_mem

/-- The name of an operation has no newline in it. -/
lemma BinaryOp.isPlain_name (op : BinaryOp) : Text.IsPlain op.name :=
  (Opcode.binary op).isPlain_mnemonic

open Text in
/-- An error that repeats no newline is worded without one. -/
lemma Error.isPlain_message {e : Error} (quotes : e.QuotesPlainly) : IsPlain e.message := by
  cases e with
  | stackUnderflow op required found =>
    have need := op.isPlain_mnemonic.append (t := " requires ") (by decide +kernel)
    have required := need.append (isPlain_toString required)
    exact (required.append (by decide +kernel)).append (isPlain_toString found)
  | stackOverflow limit =>
    exact (IsPlain.append (by decide +kernel) (isPlain_toString limit)).append (by decide +kernel)
  | assertionFailed expected actual =>
    have expectation := IsPlain.append (s := "assertion failed: expected ") (by decide +kernel)
      (quotes expected (by simp [quoted]))
    have found : IsPlain (actual.getD "empty stack") := by
      cases actual with
      | none => decide +kernel
      | some text => exact quotes text (by simp [quoted])
    exact (expectation.append (by decide +kernel)).append found
  | notPrintable kind => exact IsPlain.append (by decide +kernel) kind.isPlain_name
  | overflow op kind =>
    have operation := IsPlain.append (s := "overflow: ") (by decide +kernel) op.isPlain_name
    exact ((operation.append (by decide +kernel)).append kind.isPlain_name).append
      (by decide +kernel)
  | underflow op kind =>
    have operation := IsPlain.append (s := "underflow: ") (by decide +kernel) op.isPlain_name
    exact ((operation.append (by decide +kernel)).append kind.isPlain_name).append
      (by decide +kernel)
  | divisionByZero op => exact IsPlain.append (by decide +kernel) op.isPlain_name
  | unknownTag tag => exact IsPlain.append (by decide +kernel) (isPlain_toString tag)
  | invalidLiteral kind text =>
    have literal := IsPlain.append (s := "invalid ") (by decide +kernel) kind.isPlain_name
    exact (literal.append (by decide +kernel)).append (quotes text (by simp [quoted]))
  | literalOutOfRange kind text =>
    exact (kind.isPlain_name.append (by decide +kernel)).append (quotes text (by simp [quoted]))
  | unknownInstruction text | malformedValue text | device text =>
    exact IsPlain.append (by decide +kernel) (quotes text (by simp [quoted]))
  | missingLiteral op | unexpectedLiteral op => exact op.isPlain_mnemonic.append (by decide +kernel)

/-! ## Errors of reading -/

/-- What is between blanks are words. -/
lemma Text.Spaced.isWord {ws : List (List Char)} {cs : List Char} (spaced : Spaced ws cs) :
    ∀ w ∈ ws, IsWord w := by
  induction spaced with
  | nil => exact List.forall_mem_nil _
  | last _ hw => exact List.forall_mem_singleton.mpr hw
  | cons _ hw _ _ ih => exact List.forall_mem_cons.mpr ⟨hw, ih⟩

/-- The words of a line have no newlines in them. -/
lemma Text.isPlain_of_mem_codeWords {line word : String} (mem : word ∈ codeWords line) :
    IsPlain word := by
  rw [codeWords_eq] at mem
  obtain ⟨w, hw, rfl⟩ := List.mem_map.mp mem
  rw [IsPlain, String.toList_ofList]
  exact ((spaced_words _).isWord w hw).newline_not_mem

namespace Literal

/-- A value that is not accepted is quoted, or its digits are. -/
lemma quotesPlainly_of_parse {word : String} {e : Error} (plain : Text.IsPlain word)
    (he : parse word = .error e) :
    e.QuotesPlainly := by
  unfold parse at he
  split at he
  · cases he
    exact Error.quotesPlainly_of_singleton rfl plain
  · next l read =>
    split at he
    · cases he
    · cases he
      refine Error.quotesPlainly_of_singleton rfl fun mem => ?_
      cases isNumeric_of_isWritten (ofWord?_eq_some_iff.mp read).2 '\n' mem

end Literal

namespace Instruction

/-- Of the words behind a mnemonic at most one is quoted. -/
lemma quotesPlainly_of_parseArguments {op : Opcode} {words : List String} {e : Error}
    (plain : ∀ word ∈ words, Text.IsPlain word) (he : parseArguments op words = .error e) :
    e.QuotesPlainly := by
  unfold parseArguments at he
  split at he
  · split at he
    · cases he
      exact Error.quotesPlainly_of_nil rfl
    · cases he
  · next word =>
    split at he
    · exact Literal.quotesPlainly_of_parse (plain word (by simp)) (eq_error_of_map he)
    · cases he
      exact Error.quotesPlainly_of_nil rfl
  · next extra _ =>
    cases he
    exact Error.quotesPlainly_of_singleton rfl (plain extra (by simp))

/-- A line that cannot be read has its words quoted, or parts of them. -/
lemma quotesPlainly_of_parse {line : String} {e : Error} (he : parse line = .error e) :
    e.QuotesPlainly := by
  have plain : ∀ word ∈ Text.codeWords line, Text.IsPlain word :=
    fun _ => Text.isPlain_of_mem_codeWords
  unfold parse at he
  split at he
  · cases he
  · next first arguments words =>
    rw [words] at plain
    obtain ⟨plain, rest⟩ := List.forall_mem_cons.mp plain
    split at he
    · cases he
      exact Error.quotesPlainly_of_singleton rfl plain
    · exact quotesPlainly_of_parseArguments rest (eq_error_of_map he)

end Instruction

/-- A listing that gives no instruction quotes words of a line, or says that it cannot be read. -/
lemma Listing.quotesPlainly_of_next {l : Listing} {e : Error} (he : l.next.result = .error e) :
    e.QuotesPlainly := by
  rcases error_of_next he with ⟨text, parsed⟩ | rfl
  · exact Instruction.quotesPlainly_of_parse parsed
  · exact Error.quotesPlainly_of_singleton rfl (by decide +kernel)

/-! ## Errors of execution -/

variable {σ τ : Type} [Sink σ] [Sink τ]

/-- Whatever was offered before, the reason of a refusal has no newline. -/
def Sink.SpeaksPlainly (out : σ) : Prop :=
  Answers (fun answer => ∀ reason, answer = some reason → Text.IsPlain reason) out

/-- A device that speaks plainly goes on to do so. -/
lemma Sink.SpeaksPlainly.writeAll {out : σ} (plain : SpeaksPlainly out)
    (chunks : List (List UInt8)) :
    (∀ reason, (writeAll out chunks).1 = some reason → Text.IsPlain reason) ∧
      SpeaksPlainly (writeAll out chunks).2 := by
  refine Answers.writeAll plain (fun reason refused => ?_) chunks
  cases refused

/-- A buffer speaks plainly if its reasons have no newlines. -/
lemma Buffer.speaksPlainly {out : Buffer}
    (full : ∀ size reason, out.capacity = some (size, reason) → Text.IsPlain reason)
    (flushes : ∀ reason, out.flushRefusal = some reason → Text.IsPlain reason) :
    Sink.SpeaksPlainly out := by
  refine answers (fun reason taken => ?_) (fun size reason limited reason' refused => ?_) flushes
  · cases taken
  · cases refused
    exact full size reason limited

namespace Effect.Outcome

variable {i : Instruction} {s s' : Stack} {out out' : σ}

/-- No instruction makes the device speak otherwise. -/
lemma speaksPlainly {error : Option Error} (outcome : Outcome i s out s' out' error)
    (plain : Sink.SpeaksPlainly out) :
    Sink.SpeaksPlainly out' := by
  cases outcome with
  | @wrote chunks _ _ written | @refused chunks _ _ _ written =>
    have rest := (plain.writeAll chunks).2
    rw [written] at rest
    exact rest
  | _ => exact plain

/-- A sound instruction fails with an error that repeats texts of operands, or what the device
said. -/
lemma quotesPlainly {e : Error} (outcome : Outcome i s out s' out' (some e)) (sound : i.IsSound)
    (plain : Sink.SpeaksPlainly out) : e.QuotesPlainly := by
  cases outcome with
  | unreadable takes he =>
    obtain ⟨x, hx⟩ := sound.operand_ok takes
    cases he.symm.trans hx
  | @refuted x _ _ _ =>
    refine List.forall_mem_cons.mpr ⟨x.newline_not_mem_text, fun text mem => ?_⟩
    obtain ⟨top, -, rfl⟩ := Option.map_eq_some_iff.mp (Option.mem_toList.mp mem)
    exact top.newline_not_mem_text
  | faulted _ _ he =>
    obtain ⟨fault, rfl⟩ := Operand.apply_error he
    cases fault <;> exact Error.quotesPlainly_of_nil rfl
  | @refused chunks _ reason _ written =>
    refine Error.quotesPlainly_of_singleton rfl ((plain.writeAll chunks).1 reason ?_)
    rw [written]
  | full | underflow | notPrintable => exact Error.quotesPlainly_of_nil rfl

end Effect.Outcome

/-! ## Runs over texts -/

namespace Machine

variable {m : Machine} {out : σ}

/-- The machine takes its instructions from a listing and the device gives its reasons without
newlines. -/
structure OverListing (m : Machine) (out : σ) : Prop where
  source : ∃ l, m.source = .listing l
  plain : Sink.SpeaksPlainly out

namespace OverListing

/-- A step leaves a machine over a listing, and the device as plain as it was. -/
lemma step (reads : OverListing m out) : OverListing (m.step out).machine (m.step out).out where
  source := by
    obtain ⟨l, source⟩ := reads.source
    exact ⟨l.next.source, listing_step source⟩
  plain := by
    cases h : m.source.next.result with
    | error e =>
      rw [step_of_pull_error h]
      exact reads.plain
    | ok i =>
      rw [step_of_pull_ok h]
      exact (Effect.outcome i m.stack out).speaksPlainly reads.plain

/-- A step over a listing fails with an error that repeats no newline. -/
lemma quotesPlainly_of_step {e : Error} (reads : OverListing m out)
    (he : (m.step out).error = some e) :
    e.QuotesPlainly := by
  obtain ⟨l, source⟩ := reads.source
  cases h : m.source.next.result with
  | error e' =>
    rw [step_of_pull_error h] at he
    cases he
    rw [source] at h
    exact Listing.quotesPlainly_of_next h
  | ok i =>
    rw [step_of_pull_ok h] at he
    exact (Effect.outcome_of_error he).quotesPlainly (isSound_of_next source h) reads.plain

/-- A drive leaves a machine over a listing, and the device as plain as it was. -/
lemma drive (reads : OverListing m out) : OverListing (m.drive out).machine (m.drive out).out :=
  drive_induction (P := OverListing) (fun _ _ _ reads => reads.step) reads

/-- A drive over a listing fails with an error that repeats no newline. -/
lemma quotesPlainly_of_drive {failure : Failure} (reads : OverListing m out)
    (h : (m.drive out).failure = some failure) :
    failure.error.QuotesPlainly := by
  obtain ⟨count, m', out', reached, -, failed⟩ := exists_advance_of_failure h
  have reads' : OverListing m' out' :=
    advance_induction reads (fun _ _ _ _ reads => reads.step) reached
  obtain ⟨e, he, rfl⟩ := Option.map_eq_some_iff.mp failed
  exact reads'.quotesPlainly_of_step he

/-- An execution over a listing leaves one, and fails with an error that repeats no newline. -/
lemma execute (reads : OverListing m out) :
    OverListing (m.execute out).machine (m.execute out).out ∧
      ∀ failure, (m.execute out).failure = some failure → failure.error.QuotesPlainly := by
  obtain ⟨reasons, flushed⟩ := Sink.Answers.flush reads.drive.plain
  refine ⟨⟨reads.drive.source, flushed⟩, fun failure h => ?_⟩
  rw [execute_failure] at h
  cases hd : (m.drive out).failure with
  | some failure' =>
    rw [hd] at h
    cases h
    exact reads.quotesPlainly_of_drive hd
  | none =>
    rw [hd] at h
    obtain ⟨reason, refused, rfl⟩ := Option.map_eq_some_iff.mp h
    exact Error.quotesPlainly_of_singleton rfl (reasons reason refused)

/-- A run over a listing leaves one. -/
lemma run (reads : OverListing m out) (err : τ) :
    OverListing (m.run out err).1.machine (m.run out err).1.out := by
  rw [run_eq]
  exact reads.execute.1

end OverListing

end Machine

/-- The call left `err` as it was, if the run succeeded, and else wrote to it one line with the
number of a line and a message. -/
def Run.ReportedTo (err : τ) (result : Run σ × τ) : Prop :=
  match result.1.failure with
  | none => result.2 = err
  | some failure =>
    let report := Text.encode s!"Line {failure.line} : Error : {failure.error.message}\n"
    '\n' ∉ failure.error.message.toList ∧ Text.lines report = [report] ∧
      Sink.write err report = (none, result.2)

/-- The message of a failure has no newline if the wording of its error has none. -/
lemma Failure.isPlain_message {failure : Failure} (plain : Text.IsPlain failure.error.message) :
    Text.IsPlain failure.message := by
  have number :=
    Text.IsPlain.append (s := "Line ") (by decide +kernel) (Text.isPlain_toString failure.line)
  exact (number.append (by decide +kernel)).append plain

/-- The report of a failure is then one line. -/
lemma Failure.lines_report {failure : Failure} (plain : Text.IsPlain failure.error.message) :
    Text.lines (Text.encode failure.report) = [Text.encode failure.report] := by
  have line := Text.lines_encode (isPlain_message plain) []
  rw [List.append_nil] at line
  exact line

namespace Machine

/-- A run over a listing reports in one line, if at all. -/
lemma reportedTo_run {m : Machine} {out : σ} {err : τ} (reads : OverListing m out)
    (willing : Sink.NeverRefuses err) :
    Run.ReportedTo err (m.run out err) ∧ Sink.NeverRefuses (m.run out err).2 := by
  rw [run_eq]
  simp only [Run.ReportedTo, Run.failure_withRefusal]
  cases h : (m.execute out).failure with
  | none => exact ⟨rfl, willing⟩
  | some failure =>
    have plain := Error.isPlain_message (reads.execute.2 failure h)
    obtain ⟨taken, next⟩ := willing.write (Text.encode failure.report)
    exact ⟨⟨plain, Failure.lines_report plain, Prod.ext taken rfl⟩, next⟩

/-- Every run over a listing reports in one line, if at all. -/
lemma reportedTo_runs {m : Machine} {out : σ} {err : τ} (reads : OverListing m out)
    (willing : Sink.NeverRefuses err) (count : Nat) :
    let results := m.runs count out err
    ∀ call ∈ (err :: results.map Prod.snd).zip results, Run.ReportedTo call.1 call.2 := by
  induction count generalizing m out err with
  | zero => exact List.forall_mem_nil _
  | succ count ih =>
    obtain ⟨reported, next⟩ := reportedTo_run reads willing
    exact List.forall_mem_cons.mpr ⟨reported, ih (reads.run err) next⟩

/-- However often a machine over a text is run, in which mode and with which limit, every call
writes nothing to `err` if it succeeds, and exactly one line if it fails. The text of the program
cannot break the report into several lines. -/
theorem runs_report_in_one_line (mode : Mode) (bytes : List UInt8) (limit : Option Nat) (out : σ)
    (err : τ) (plain : Sink.SpeaksPlainly out) (willing : Sink.NeverRefuses err) (count : Nat) :
    let results := (start (.listing (.ofBytes mode bytes)) limit).runs count out err
    ∀ call ∈ (err :: results.map Prod.snd).zip results, Run.ReportedTo call.1 call.2 :=
  reportedTo_runs ⟨⟨_, rfl⟩, plain⟩ willing count

/-- Four calls over a text whose second line, with blanks that some programs take for line breaks,
is made to look like a report, and whose second `print` finds no room. -/
theorem runs_report_in_one_line_of_forged_report :
    let out := Buffer.limited 1 "sink full"
    let text := "push int8(65)\njump\x0bLine\u20282 : Error : none\nprint\nprint\n"
    let results :=
      (start (.listing (.ofBytes .file (Text.encode text))) (some 1)).runs 4 out Buffer.unlimited
    Sink.SpeaksPlainly out ∧ Sink.NeverRefuses Buffer.unlimited ∧
      ∀ call ∈ (Buffer.unlimited :: results.map Prod.snd).zip results,
        Run.ReportedTo call.1 call.2 := by
  have plain : Sink.SpeaksPlainly (Buffer.limited 1 "sink full") := by
    refine Buffer.speaksPlainly (fun size reason full => ?_) (fun reason refused => ?_)
    · cases full
      decide
    · cases refused
  have willing : Sink.NeverRefuses Buffer.unlimited := Buffer.neverRefuses rfl rfl
  exact ⟨plain, willing, runs_report_in_one_line .file _ (some 1) _ _ plain willing 4⟩

end Machine

end TypedStack
