import TypedStack.CommandLine
import TypedStack.Proofs.Alike
import TypedStack.Proofs.Progress
import TypedStack.Proofs.Records

/-!
# Files and standard input

A text is read in the same way from a file and from standard input, up to the first line `;;`. In a
file that line is a comment, on standard input it is the end, and what is behind it makes no
difference.
-/

namespace TypedStack

namespace Text

/-- A line that can be read and is `;;` between blanks. -/
def IsStopLine (line : List UInt8) : Prop :=
  ∃ text, decode? line = some text ∧ trim text.toList = [';', ';']

/-- A line that can be read and holds an `exit`. -/
def IsExitLine (line : List UInt8) : Prop :=
  ∃ text i, decode? line = some text ∧ Instruction.parse text = .ok (some i) ∧ i.opcode = .exit

end Text

namespace LineMeaning

variable {line : List UInt8}

/-- A line that is not `;;` means the same in both modes. -/
lemma ofLine_of_not_isStopLine (noStop : ¬ Text.IsStopLine line) :
    ofLine .interactive line = ofLine .file line := by
  unfold ofLine
  cases h : Text.decode? line with
  | none => rfl
  | some text =>
    have noTrim : Text.trim text.toList ≠ [';', ';'] := fun trim => noStop ⟨text, h, trim⟩
    simp [noTrim]

/-- On standard input a line `;;` is the end. -/
lemma ofLine_of_isStopLine (isStop : Text.IsStopLine line) : ofLine .interactive line = stop := by
  obtain ⟨text, h, trim⟩ := isStop
  simp [ofLine, h, trim]

/-- In a file only an `exit` is the end. -/
lemma isEnd_ofLine_file : (ofLine .file line).isEnd = true ↔ Text.IsExitLine line := by
  unfold ofLine
  constructor
  · intro ends
    split at ends
    · cases ends
    · next text h =>
      split at ends
      · next both => cases both.1
      · split at ends
        · cases ends
        · next i parsed => exact ⟨text, i, h, parsed, beq_iff_eq.mp ends⟩
        · cases ends
  · rintro ⟨text, i, h, parsed, hop⟩
    simp [h, parsed, isEnd, hop]

end LineMeaning

namespace Listing

variable {meaning : LineMeaning} {line : Nat}

/-! ### Answers and ends of lists of meanings -/

/-- A line that is no end has its own answer, if any, before those of the others. -/
lemma answersFrom_of_not_isEnd (ends : meaning.isEnd = false) (ms : List LineMeaning) :
    answersFrom line (meaning :: ms) =
      (meaning.answer?.map (·, line + 1)).toList ++ answersFrom (line + 1) ms := by
  cases h : meaning.answer? with
  | none => simp [answersFrom, ends, h]
  | some a => rw [answersFrom_of_answer ends h]; rfl

/-- Behind an end there are no answers. -/
lemma answersFrom_append_of_isEnd (ends : meaning.isEnd = true) (line : Nat)
    (ms rest : List LineMeaning) :
    answersFrom line (ms ++ meaning :: rest) = answersFrom line ms := by
  induction ms generalizing line with
  | nil => exact answersFrom_of_isEnd ends
  | cons m ms ih =>
    cases h : m.isEnd with
    | true => rw [List.cons_append, answersFrom_of_isEnd h, answersFrom_of_isEnd h]
    | false => rw [List.cons_append, answersFrom_of_not_isEnd h, answersFrom_of_not_isEnd h, ih]

/-- What is behind an end makes no difference to where the end is. -/
lemma endFrom_append_of_isEnd (ends : meaning.isEnd = true) (line : Nat)
    (ms rest : List LineMeaning) :
    endFrom line (ms ++ meaning :: rest) = endFrom line (ms ++ [meaning]) := by
  induction ms generalizing line with
  | nil => rw [List.nil_append, List.nil_append, endFrom_of_isEnd ends, endFrom_of_isEnd ends]
  | cons m ms ih =>
    cases h : m.isEnd with
    | true => rw [List.cons_append, List.cons_append, endFrom_of_isEnd h, endFrom_of_isEnd h]
    | false =>
      rw [List.cons_append, List.cons_append, endFrom_of_not_isEnd h, endFrom_of_not_isEnd h, ih]

/-- Lines that are no end only count. -/
lemma endFrom_of_none (ms : List LineMeaning) (noEnd : ∀ m ∈ ms, m.isEnd = false)
    (rest : List LineMeaning) :
    endFrom line (ms ++ rest) = endFrom (line + ms.length) rest := by
  induction ms generalizing line with
  | nil => rfl
  | cons m ms ih =>
    have rest : ∀ m ∈ ms, m.isEnd = false := fun m hm => noEnd m (List.mem_cons_of_mem _ hm)
    rw [List.cons_append, endFrom_of_not_isEnd (noEnd m List.mem_cons_self), ih rest,
      List.length_cons, Nat.add_assoc, Nat.add_comm 1]

/-- Whether an answer is the one at the end of a text. -/
def isExit : Except Error Instruction → Bool
  | .ok i => i.opcode == .exit
  | .error _ => false

/-- Before the end, no answer is an `exit`. -/
lemma isExit_of_mem_answersFrom {ms : List LineMeaning} {answer : Except Error Instruction × Nat}
    (h : answer ∈ answersFrom line ms) : isExit answer.1 = false := by
  obtain ⟨⟨meaning, n⟩, mem, ha⟩ := List.mem_filterMap.mp h
  have ends := List.mem_takeWhile_imp mem
  obtain ⟨a, ha, rfl⟩ := Option.map_eq_some_iff.mp ha
  cases meaning with
  | blank => cases ha
  | stop => cases ends
  | instruction i =>
    cases ha
    simpa [LineMeaning.isEnd, isExit] using ends
  | error e =>
    cases ha
    rfl

/-! ### Texts in both modes -/

variable {bytes : List UInt8} {i : Nat} {stop : List UInt8}

/-- Lines that are not `;;` mean the same in both modes. -/
lemma map_ofLine_of_no_stop {lines : List (List UInt8)}
    (noStop : ∀ line ∈ lines, ¬ Text.IsStopLine line) :
    lines.map (LineMeaning.ofLine .interactive) = lines.map (LineMeaning.ofLine .file) :=
  List.map_congr_left fun line hl => LineMeaning.ofLine_of_not_isStopLine (noStop line hl)

/-- Without a line `;;` a text reads alike in both modes. -/
lemma alike_of_no_stop (noStop : ∀ line ∈ Text.lines bytes, ¬ Text.IsStopLine line) :
    Alike (ofBytes .interactive bytes) (ofBytes .file bytes) := by
  have same : meanings .interactive bytes = meanings .file bytes := map_ofLine_of_no_stop noStop
  exact ⟨rfl, congrArg (answersFrom 0) same, congrArg (endFrom 0) same⟩

/-- An `exit` before the first `;;` ends the text in both modes. -/
lemma alike_of_exit (noStop : ∀ line ∈ (Text.lines bytes).take i, ¬ Text.IsStopLine line)
    (exits : ∃ line ∈ (Text.lines bytes).take i, Text.IsExitLine line) :
    Alike (ofBytes .interactive bytes) (ofBytes .file bytes) := by
  obtain ⟨line, mem, isExit⟩ := exits
  obtain ⟨before, behind, cut⟩ := List.append_of_mem mem
  rw [cut] at noStop
  have lines : Text.lines bytes = before ++ line :: (behind ++ (Text.lines bytes).drop i) := by
    rw [← List.cons_append, ← List.append_assoc, ← cut, List.take_append_drop]
  have meanings (mode : Mode) : meanings mode bytes =
      before.map (LineMeaning.ofLine mode) ++ LineMeaning.ofLine mode line ::
        (behind ++ (Text.lines bytes).drop i).map (LineMeaning.ofLine mode) := by
    rw [Listing.meanings, lines, List.map_append, List.map_cons, ← lines]
  -- up to the `exit` the lines mean the same, and behind it nothing is read
  have ends : (LineMeaning.ofLine .file line).isEnd = true :=
    LineMeaning.isEnd_ofLine_file.mpr isExit
  have sameLine : LineMeaning.ofLine .interactive line = LineMeaning.ofLine .file line :=
    LineMeaning.ofLine_of_not_isStopLine
      (noStop line (List.mem_append_right before List.mem_cons_self))
  have sameBefore := map_ofLine_of_no_stop fun line hl => noStop line (List.mem_append_left _ hl)
  refine ⟨rfl, ?_, ?_⟩
  · show answersFrom 0 (Listing.meanings .interactive bytes) =
      answersFrom 0 (Listing.meanings .file bytes)
    rw [meanings, meanings, sameLine, answersFrom_append_of_isEnd ends,
      answersFrom_append_of_isEnd ends, sameBefore]
  · show endFrom 0 (Listing.meanings .interactive bytes) = endFrom 0 (Listing.meanings .file bytes)
    rw [meanings, meanings, sameLine, endFrom_append_of_isEnd ends, sameBefore,
      ← endFrom_append_of_isEnd ends]

/-- Before its first `;;`, if there is no `exit` before it, an interactive text answers as the lines
before it do in a file, and ends one line further down. -/
lemma ahead_of_stop (isLine : (Text.lines bytes)[i]? = some stop) (isStop : Text.IsStopLine stop)
    (noStop : ∀ line ∈ (Text.lines bytes).take i, ¬ Text.IsStopLine line)
    (noExit : ∀ line ∈ (Text.lines bytes).take i, ¬ Text.IsExitLine line) :
    let before := ((Text.lines bytes).take i).flatten
    (ofBytes .interactive bytes).ahead = (ofBytes .file before).ahead ∧
      (ofBytes .interactive bytes).lastLine = i + 1 ∧ (ofBytes .file before).lastLine = i := by
  intro before
  obtain ⟨lt, get⟩ := List.getElem?_eq_some_iff.mp isLine
  have length : ((Text.lines bytes).take i).length = i := List.length_take_of_le (Nat.le_of_lt lt)
  have interactive : meanings .interactive bytes =
      ((Text.lines bytes).take i).map (LineMeaning.ofLine .file) ++
        .stop :: ((Text.lines bytes).drop (i + 1)).map (LineMeaning.ofLine .interactive) := by
    rw [← map_ofLine_of_no_stop noStop, ← LineMeaning.ofLine_of_isStopLine isStop, ← List.map_cons,
      ← List.map_append, ← get, ← List.drop_eq_getElem_cons lt, List.take_append_drop]
    rfl
  have file : meanings .file before =
      ((Text.lines bytes).take i).map (LineMeaning.ofLine .file) := by
    rw [meanings, Text.lines_flatten_take]
  have noEnd : ∀ m ∈ ((Text.lines bytes).take i).map (LineMeaning.ofLine .file),
      m.isEnd = false := by
    intro m hm
    obtain ⟨line, hl, rfl⟩ := List.mem_map.mp hm
    exact Bool.eq_false_iff.mpr fun ends => noExit line hl (LineMeaning.isEnd_ofLine_file.mp ends)
  refine ⟨?_, ?_, ?_⟩
  · show answersFrom 0 (meanings .interactive bytes) = answersFrom 0 (meanings .file before)
    rw [interactive, file, answersFrom_append_of_isEnd rfl]
  · show endFrom 0 (meanings .interactive bytes) = i + 1
    rw [interactive, endFrom_of_none _ noEnd, endFrom_of_isEnd rfl, List.length_map, length,
      Nat.zero_add]
  · show endFrom 0 (meanings .file before) = i
    rw [file, ← List.append_nil (List.map _ _), endFrom_of_none _ noEnd, List.length_map, length,
      Nat.zero_add]
    rfl

/-- What a listing has ahead of its end is no `exit`. -/
lemma isExit_of_mem_ahead {l : Listing} {answer : Except Error Instruction × Nat}
    (h : answer ∈ l.ahead) :
    isExit answer.1 = false := by
  unfold ahead at h
  split at h
  · cases h
  · exact isExit_of_mem_answersFrom h

/-- Listings with the same answers ahead differ at most in the number of their last line, which they
give with `exit`. -/
lemma pulls_of_ahead_eq {l l' : Listing} (ahead : l.ahead = l'.ahead) (count : Nat) :
    pulls count l =
      (pulls count l').map fun (answer, line) =>
        (answer, if isExit answer then l.lastLine else line) := by
  rw [pulls_eq_map, pulls_eq_map, List.map_map, ahead]
  refine List.map_congr_left fun k _ => ?_
  rw [Function.comp_apply, List.getD_eq_getElem?_getD, List.getD_eq_getElem?_getD]
  cases h : l'.ahead[k]? with
  | none => rfl
  | some answer =>
    have noExit := isExit_of_mem_ahead (List.mem_of_getElem? h)
    simp [noExit]

/-- A listing gives an `exit` with the number of its last line. -/
lemma line_of_isExit {l : Listing} {count : Nat} {answer : Except Error Instruction × Nat}
    (h : answer ∈ pulls count l) (exits : isExit answer.1 = true) : answer.2 = l.lastLine := by
  rw [pulls_eq_map] at h
  obtain ⟨k, -, rfl⟩ := List.mem_map.mp h
  rw [List.getD_eq_getElem?_getD] at exits ⊢
  cases hk : l.ahead[k]? with
  | none => rfl
  | some answer =>
    rw [hk] at exits
    cases (isExit_of_mem_ahead (List.mem_of_getElem? hk)).symm.trans exits

/-- A text gives the same answers in both modes. -/
def ModesAgree (bytes : List UInt8) : Prop :=
  ∀ count, pulls count (ofBytes .interactive bytes) = pulls count (ofBytes .file bytes)

end Listing

/-! ### Processes -/

namespace Report

variable {σ τ : Type} [Sink σ] [Sink τ]

/-- At the standard level of the log, a process does the same with a text as its program file and as
its input, whatever parses its arguments, opens its files and shows its log. -/
def ModesAgree (bytes : List UInt8) : Prop :=
  ∀ (σ τ : Type) [Sink σ] [Sink τ] (parse : List String → Except Usage Arguments)
    (openPath openPath' : String → Except String Opened) (stdin : List UInt8)
    (arguments arguments' : List String) (file : String) (limit : Option Nat) (log : Logger τ)
    (out : σ) (err : τ),
    parse arguments = .ok ⟨some file, limit⟩ → openPath file = .ok (.file bytes) →
    parse arguments' = .ok ⟨none, limit⟩ → log.level = .standard →
    let fromFile := ofArguments parse openPath stdin arguments log out err
    let fromInput := ofArguments parse openPath' bytes arguments' log out err
    fromFile.out = fromInput.out ∧ fromFile.err = fromInput.err ∧ fromFile.code = fromInput.code

/-- What is left of a run of which the log shows nothing: the report of its failure, and a record if
the report is refused. -/
def ofFailure (log : Logger τ) (failure : Option Failure) (out : σ) (err : τ) : Report σ τ :=
  match failure with
  | none => ⟨0, out, err⟩
  | some failure => ⟨1, out, log.offer (failure.reportTo err).1 (failure.reportTo err).2⟩

/-- At a level that shows nothing of a run, a process leaves the report of its failure only. -/
lemma ofSource_of_quiet {log : Logger τ} (quiet : log.level.rank < Level.debug.rank)
    (file : Option String) (source : Source) (limit : Option Nat) (out : σ) (err : τ) :
    let run := (Machine.start source limit).execute out
    ofSource log file source limit out err = ofFailure log run.failure run.out err := by
  have hidden {event : Event} (debug : event.level = .debug) : event.isShown log.level = false := by
    rw [Event.isShown, debug]
    exact decide_eq_false (Nat.not_le.mpr quiet)
  have unseen (err : τ) : log.offer (.sourceOpened file ::
      ((Machine.start source limit).execute out).events) err = err := by
    refine Logger.offer_of_hidden (List.forall_mem_cons.mpr ⟨hidden rfl, fun event h => ?_⟩) err
    exact Machine.isShown_of_mem_events_execute quiet h
  have last (depth : Nat) (err : τ) : log.offer [.programFailed depth] err = err :=
    Logger.offer_of_hidden (List.forall_mem_singleton.mpr (hidden rfl)) err
  unfold ofSource ofFailure
  generalize (Machine.start source limit).execute out = run at unseen ⊢
  obtain ⟨machine, out, failure, events⟩ := run
  cases failure with
  | none => simp [unseen, Run.exitCode, Run.succeeded]
  | some failure => simp [unseen, Logger.offer_append, last, Run.exitCode, Run.succeeded]

/-- A process does the same with listings that read alike. -/
lemma modesAgree_of_alike {bytes : List UInt8}
    (alike : Listing.Alike (.ofBytes .interactive bytes) (.ofBytes .file bytes)) :
    ModesAgree bytes := by
  intro σ τ _ _ parse openPath openPath' stdin arguments arguments' file limit log out err
    hfile opened hinput standard
  let m (mode : Mode) : Machine := .start (.listing (.ofBytes mode bytes)) limit
  have seen : observe ((m .interactive).run out err) = observe ((m .file).run out err) :=
    ((Machine.inStep_of_alike alike limit).run Source.isAgreement_alike out err).2
  rw [Machine.run_eq, Machine.run_eq] at seen
  have failure : ((m .interactive).execute out).failure = ((m .file).execute out).failure :=
    congrArg Observation.failure seen
  have written : ((m .interactive).execute out).out = ((m .file).execute out).out :=
    congrArg Observation.out seen
  have quiet : log.level.rank < Level.debug.rank := by
    rw [standard]
    decide
  have same : ofArguments parse openPath stdin arguments log out err =
      ofArguments parse openPath' bytes arguments' log out err := by
    simp only [ofArguments, hfile, hinput, opened, sourceOf]
    rw [ofSource_of_quiet quiet, ofSource_of_quiet quiet]
    show ofFailure log ((m .file).execute out).failure _ err =
      ofFailure log ((m .interactive).execute out).failure _ err
    rw [failure, written]
  exact ⟨congrArg Report.out same, congrArg Report.err same, congrArg Report.code same⟩

end Report

/-- A text without a line `;;` gives the same answers with the same line numbers from a file and
from standard input, and so does one that has an `exit` before its first line `;;`; a process then
has the same output, error text and exit code. If line `i + 1` is the first line `;;` and there is
no `exit` before it, the text on standard input gives the answers that the `i` lines before it give
from a file, except that `exit` comes with the line number `i + 1` in place of `i`. -/
theorem modes_agree_until_stop (bytes : List UInt8) :
    ((∀ line ∈ Text.lines bytes, ¬ Text.IsStopLine line) →
      Listing.ModesAgree bytes ∧ Report.ModesAgree bytes) ∧
    ∀ i stop, (Text.lines bytes)[i]? = some stop → Text.IsStopLine stop →
      (∀ line ∈ (Text.lines bytes).take i, ¬ Text.IsStopLine line) →
      ((∃ line ∈ (Text.lines bytes).take i, Text.IsExitLine line) →
        Listing.ModesAgree bytes ∧ Report.ModesAgree bytes) ∧
      ((∀ line ∈ (Text.lines bytes).take i, ¬ Text.IsExitLine line) →
        let before := ((Text.lines bytes).take i).flatten
        ∀ count,
          Listing.pulls count (.ofBytes .interactive bytes) =
            (Listing.pulls count (.ofBytes .file before)).map (fun (answer, line) =>
              (answer, if Listing.isExit answer then i + 1 else line)) ∧
          ∀ answer ∈ Listing.pulls count (.ofBytes .file before),
            Listing.isExit answer.1 = true → answer.2 = i) := by
  refine ⟨fun noStop => ?_, fun i stop isLine isStop noStop => ⟨fun exits => ?_, fun noExit => ?_⟩⟩
  · have alike := Listing.alike_of_no_stop noStop
    exact ⟨alike.pulls, Report.modesAgree_of_alike alike⟩
  · have alike := Listing.alike_of_exit noStop exits
    exact ⟨alike.pulls, Report.modesAgree_of_alike alike⟩
  · intro before count
    obtain ⟨ahead, last, lastBefore⟩ := Listing.ahead_of_stop isLine isStop noStop noExit
    refine ⟨?_, fun answer h exits => ?_⟩
    · rw [← last]
      exact Listing.pulls_of_ahead_eq ahead count
    · exact (Listing.line_of_isExit h exits).trans lastBefore

end TypedStack
