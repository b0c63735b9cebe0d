import TypedStack.CommandLine
import TypedStack.Proofs.Records
import TypedStack.Proofs.Reporting

/-!
# Logging

The log of a process stands on standard error beside the report of a failure. Which records are
shown depends on the level of the log, and nothing else does. Processes at different levels are
compared on a `Console`, a standard error that keeps records and texts apart. What becomes of any
other standard error is what the pieces on a console make of it, one after the other (`Logger.put`),
if the console answers texts as it does (`Logger.Answers`).
Of the library that shows the records no more is assumed than `Logger.WritesLines` says: that a
record without newlines in it is one line, which can be told from a report.
-/

namespace TypedStack

/-! ## Consoles -/

/-- A piece of standard error: a record of the log, or a text that was offered and why it was
refused, if it was. -/
inductive Entry where
  | record (event : Event)
  | text (bytes : List UInt8) (refusal : Option String)

namespace Entry

/-- The record that a piece is, if it is one. -/
def event? : Entry → Option Event
  | record event => some event
  | text _ _ => none

/-- The bytes of a text. -/
def bytes? : Entry → Option (List UInt8)
  | record _ => none
  | text bytes _ => some bytes

/-- Whether a piece is there at a level of the log. -/
def isShown (level : Level) : Entry → Bool
  | record event => event.isShown level
  | text _ _ => true

/-- With the log off, what is there is what is no record. -/
lemma isShown_off (entry : Entry) : entry.isShown .off = entry.event?.isNone := by
  cases entry with
  | record event => exact event.isShown_off
  | text bytes refusal => rfl

/-- Without its records, what is shown is the same at every level. -/
lemma filter_isShown (level : Level) (entries : List Entry) :
    (entries.filter (·.isShown level)).filter (·.event?.isNone) =
      entries.filter (·.isShown .off) := by
  rw [List.filter_filter]
  refine List.filter_congr fun entry _ => ?_
  cases entry with
  | record event => exact event.isShown_off.symm
  | text bytes refusal => rfl

/-- At the level of everything all is there. -/
lemma filter_isShown_trace (entries : List Entry) :
    entries.filter (·.isShown .trace) = entries := by
  refine List.filter_eq_self.mpr fun entry _ => ?_
  cases entry with
  | record event => exact event.isShown_trace
  | text bytes refusal => rfl

/-- The records that a level shows are those of all records that it shows. -/
lemma filterMap_isShown (level : Level) (entries : List Entry) :
    (entries.filter (·.isShown level)).filterMap event? =
      (entries.filterMap event?).filter (·.isShown level) := by
  rw [List.filterMap_filter, List.filter_filterMap]
  refine List.filterMap_congr fun entry _ => ?_
  cases entry with
  | record event => rfl
  | text bytes refusal => rfl

/-- The texts are shown at every level. -/
lemma filterMap_bytes (level : Level) (entries : List Entry) :
    (entries.filter (·.isShown level)).filterMap bytes? = entries.filterMap bytes? := by
  rw [List.filterMap_filter]
  refine List.filterMap_congr fun entry _ => ?_
  cases entry with
  | record event => exact ite_self none
  | text bytes refusal => rfl

/-- If a piece is a text, it was given this answer. -/
def Answered (refusal : Option String) : Entry → Prop
  | record _ => True
  | text _ answer => answer = refusal

/-- Records are given no answer. -/
lemma answered_map_record (refusal : Option String) (events : List Event) :
    ∀ entry ∈ events.map record, entry.Answered refusal :=
  List.forall_mem_map.mpr fun _ _ => trivial

/-- Of pieces that are all records, the records are all. -/
lemma filterMap_record (events : List Event) : (events.map record).filterMap event? = events := by
  rw [List.filterMap_map]
  exact List.filterMap_some

end Entry

namespace Logger

variable {τ : Type} [Sink τ]

/-- What becomes of a device when a piece is put on it: a record is shown, a text is offered. -/
def put (log : Logger τ) (err : τ) : Entry → τ
  | .record event => log.emit err event
  | .text bytes _ => (Sink.write err bytes).2

/-- Each text among the pieces is answered as the device answers it, when those before it have been
put there. -/
def Answers (log : Logger τ) : τ → List Entry → Prop
  | _, [] => True
  | err, .record event :: entries => Answers log (log.emit err event) entries
  | err, .text bytes answer :: entries =>
    (Sink.write err bytes).1 = answer ∧ Answers log (Sink.write err bytes).2 entries

/-- Pieces are answered one behind the other. -/
lemma answers_append {log : Logger τ} {err : τ} {entries more : List Entry} :
    log.Answers err (entries ++ more) ↔
      log.Answers err entries ∧ log.Answers (entries.foldl log.put err) more := by
  induction entries generalizing err with
  | nil => exact (and_iff_right trivial).symm
  | cons entry entries ih =>
    cases entry with
    | record event => exact ih
    | text bytes answer => exact (and_congr_right fun _ => ih).trans and_assoc.symm

/-- Records are not answered. -/
lemma answers_map_record (log : Logger τ) (err : τ) (events : List Event) :
    log.Answers err ((events.map .record).filter (·.isShown log.level)) := by
  rw [List.filter_map]
  induction events.filter _ generalizing err with
  | nil => trivial
  | cons event events ih => exact ih (log.emit err event)

/-- A device that is in a state to give all texts the same answer, and stays in it, gives that to
those among the pieces. -/
lemma answers_of_answered {log : Logger τ} {refusal : Option String} (answering : τ → Prop)
    (write : ∀ err text, answering err →
      (Sink.write err text).1 = refusal ∧ answering (Sink.write err text).2)
    (emit : ∀ err event, answering err → answering (log.emit err event)) {entries : List Entry}
    (answered : ∀ entry ∈ entries, entry.Answered refusal) {err : τ} (start : answering err) :
    log.Answers err entries := by
  induction entries generalizing err with
  | nil => trivial
  | cons entry entries ih =>
    obtain ⟨first, rest⟩ := List.forall_mem_cons.mp answered
    cases entry with
    | record event => exact ih rest (emit err event start)
    | text bytes answer =>
      obtain ⟨given, next⟩ := write err bytes start
      exact ⟨given.trans first.symm, ih rest next⟩

/-- Records that are offered are put on the device, those of the level. -/
lemma offer_eq_foldl_put (log : Logger τ) (events : List Event) (err : τ) :
    log.offer events err =
      ((events.map Entry.record).filter (·.isShown log.level)).foldl log.put err := by
  rw [offer, List.filter_map, List.foldl_map]
  rfl

section
variable (log : Logger τ) (err : τ) (before after : List Event) (bytes : List UInt8)
  (answer : Option String)

/-- A text between records is answered when those before it have been offered. -/
lemma answers_between :
    log.Answers err ((before.map .record ++ .text bytes answer :: after.map .record :
        List Entry).filter (·.isShown log.level)) ↔
      (Sink.write (log.offer before err) bytes).1 = answer := by
  rw [List.filter_append, List.filter_cons_of_pos rfl, answers_append, ← offer_eq_foldl_put,
    and_iff_right (log.answers_map_record err before)]
  exact and_iff_left (log.answers_map_record _ after)

/-- It is offered between them. -/
lemma foldl_put_between :
    ((before.map .record ++ .text bytes answer :: after.map .record :
        List Entry).filter (·.isShown log.level)).foldl log.put err =
      log.offer after (Sink.write (log.offer before err) bytes).2 := by
  rw [List.filter_append, List.foldl_append, ← offer_eq_foldl_put, List.filter_cons_of_pos rfl,
    List.foldl_cons, ← offer_eq_foldl_put]
  rfl

end

end Logger

/-- A standard error that keeps records and texts apart. It may have a reason to refuse texts. -/
structure Console where
  entries : List Entry
  refusal : Option String

namespace Console

instance : Sink Console where
  write err bytes := (err.refusal, { err with entries := err.entries ++ [.text bytes err.refusal] })
  flush err := (none, err)

/-- The library that shows records on a console. -/
def logger (level : Level) : Logger Console where
  level := level
  emit err event := { err with entries := err.entries ++ [.record event] }

/-- The records on a console. -/
def records (err : Console) : List Event := err.entries.filterMap Entry.event?

/-- What is left on a console when its records are deleted. -/
def withoutRecords (err : Console) : List Entry := err.entries.filter (·.event?.isNone)

/-- A console keeps what is put on it. -/
lemma foldl_put {level : Level} {refusal : Option String} {entries : List Entry}
    (answered : ∀ entry ∈ entries, entry.Answered refusal) (before : List Entry) :
    entries.foldl (logger level).put ⟨before, refusal⟩ = ⟨before ++ entries, refusal⟩ := by
  induction entries generalizing before with
  | nil => rw [List.foldl_nil, List.append_nil]
  | cons entry entries ih =>
    obtain ⟨first, rest⟩ := List.forall_mem_cons.mp answered
    have kept : (logger level).put ⟨before, refusal⟩ entry = ⟨before ++ [entry], refusal⟩ := by
      cases entry with
      | record event => rfl
      | text bytes answer =>
        cases first
        rfl
    rw [List.foldl_cons, kept, ih rest, List.append_assoc, List.singleton_append]

end Console

/-! ## What a process has for standard error -/

section
variable {σ τ : Type} [Sink σ] [Sink τ]

/-- What a process has for standard error behind the steps of its run, if the report is refused for
the given reason, or is not. -/
def Run.closing (refusal : Option String) (run : Run σ) : List Entry :=
  match run.failure with
  | none => [.record (.runFinished run.machine.stack.size)]
  | some failure =>
    .record (.runFailed failure) :: .text (Text.encode failure.report) refusal ::
      (refusal.toList.map Event.notReported ++
        [Event.programFailed run.machine.stack.size]).map .record

/-- All that a process has for standard error: the records of its start, those of its steps in their
order, and its end. -/
def Machine.pieces (file refusal : Option String) (m : Machine) (out : σ) : List Entry :=
  let steps := (m.steps out).flatMap fun taken =>
    taken.1.source.next.events ++ taken.2.records taken.1
  (.sourceOpened file :: .runStarted m.stack.limit :: steps).map .record ++
    (m.execute out).closing refusal

namespace Machine

variable {m : Machine} {out : σ}

/-- Of a run that goes well, a process has no more than the records of the run. -/
lemma pieces_of_ok (file refusal : Option String) (ok : (m.execute out).failure = none) :
    m.pieces file refusal out =
      (Event.sourceOpened file :: (m.execute out).events).map .record := by
  rw [pieces, Run.closing, events_execute, events_drive, ok]
  simp

/-- Of a run that fails, it has the report between those records and its own. -/
lemma pieces_of_failure (file refusal : Option String) {failure : Failure}
    (failed : (m.execute out).failure = some failure) :
    m.pieces file refusal out =
      (Event.sourceOpened file :: (m.execute out).events).map .record ++
        .text (Text.encode failure.report) refusal ::
          (refusal.toList.map Event.notReported ++
            [Event.programFailed (m.execute out).machine.stack.size]).map .record := by
  rw [pieces, Run.closing, events_execute, events_drive, failed]
  simp

/-- The records of the steps are among those that a process has, and no others of their kind. -/
lemma filter_pieces (m : Machine) (out : σ) (file refusal : Option String) :
    ((m.pieces file refusal out).filterMap Entry.event?).filter Event.isOfStep =
      (m.steps out).flatMap fun taken => taken.2.records taken.1 := by
  have closing :
      (((m.execute out).closing refusal).filterMap Entry.event?).filter Event.isOfStep = [] := by
    unfold Run.closing
    split
    · rfl
    · cases refusal <;> rfl
  rw [pieces, List.filterMap_append, List.filter_append, closing, List.append_nil,
    Entry.filterMap_record, List.filter_cons_of_neg Bool.false_ne_true,
    List.filter_cons_of_neg Bool.false_ne_true, ← events_drive, filter_events_drive]

/-- Where texts are taken, no record is a warning. -/
lemma level_of_mem_pieces {file : Option String} :
    ∀ event ∈ (m.pieces file none out).filterMap Entry.event?, event.level ≠ .warn := by
  have recorded : ∀ event ∈ Event.sourceOpened file :: (m.execute out).events,
      event.level ≠ .warn := by
    refine List.forall_mem_cons.mpr ⟨Level.noConfusion, fun event mem => ?_⟩
    rcases mem_events_execute mem with rfl | mem | ⟨failure, -, rfl⟩ | rfl
    · exact Level.noConfusion
    · rw [level_of_mem_events_drive mem]
      exact Level.noConfusion
    · exact Level.noConfusion
    · exact Level.noConfusion
  cases failed : (m.execute out).failure with
  | none =>
    rw [pieces_of_ok _ _ failed, Entry.filterMap_record]
    exact recorded
  | some failure =>
    rw [pieces_of_failure _ _ failed, List.filterMap_append, Entry.filterMap_record]
    exact List.forall_mem_append.mpr
      ⟨recorded, List.forall_mem_singleton.mpr Level.noConfusion⟩

end Machine

/-- What the process does with any standard error is to put pieces on it, those of them that the
level of the log shows. The pieces depend on how standard error answers the text among them. -/
structure Shows (process : ∀ (τ : Type) [Sink τ], Logger τ → τ → τ)
    (pieces : Option String → List Entry) : Prop where
  answered : ∀ refusal, ∀ entry ∈ pieces refusal, entry.Answered refusal
  answers : ∀ (τ : Type) [Sink τ] (log : Logger τ) (err : τ),
    ∃ refusal, log.Answers err ((pieces refusal).filter (·.isShown log.level))
  put : ∀ (τ : Type) [Sink τ] (log : Logger τ) (err : τ) (refusal : Option String),
    log.Answers err ((pieces refusal).filter (·.isShown log.level)) →
      process τ log err = ((pieces refusal).filter (·.isShown log.level)).foldl log.put err

/-- The pieces that a level shows are answered alike too. -/
lemma Shows.answered_filter {process : ∀ (τ : Type) [Sink τ], Logger τ → τ → τ}
    {pieces : Option String → List Entry} (shows : Shows process pieces) (level : Level)
    (refusal : Option String) :
    ∀ entry ∈ (pieces refusal).filter (·.isShown level), entry.Answered refusal :=
  fun entry mem => shows.answered refusal entry (List.mem_of_mem_filter mem)

/-- On a console are the pieces that its level shows. -/
lemma Shows.console {process : ∀ (τ : Type) [Sink τ], Logger τ → τ → τ}
    {pieces : Option String → List Entry} (shows : Shows process pieces) (level : Level)
    (refusal : Option String) :
    process Console (Console.logger level) ⟨[], refusal⟩ =
      ⟨(pieces refusal).filter (·.isShown level), refusal⟩ := by
  have answered := shows.answered_filter level refusal
  have answers : (Console.logger level).Answers ⟨[], refusal⟩
      ((pieces refusal).filter (·.isShown level)) :=
    Logger.answers_of_answered (·.refusal = refusal)
      (fun _ _ same => ⟨same, same⟩) (fun _ _ same => same) answered rfl
  exact (shows.put Console _ _ refusal answers).trans (Console.foldl_put answered [])

/-- A process that only writes a text shows that. -/
lemma shows_text (text : List UInt8) :
    Shows (fun _ _ _ err => (Sink.write err text).2) (fun refusal => [.text text refusal]) where
  answered _ := List.forall_mem_singleton.mpr rfl
  answers _ _ _ err := ⟨(Sink.write err text).1, rfl, trivial⟩
  put _ _ _ _ _ _ := rfl

/-- A refusal is what is recorded when a failure is reported. -/
lemma Failure.reportTo_eq (failure : Failure) (err : τ) :
    let answer := Sink.write err (Text.encode failure.report)
    failure.reportTo err = (answer.1.toList.map Event.notReported, answer.2) := by
  unfold reportTo
  split
  · next taken => rw [taken]; rfl
  · next refused => rw [refused]; rfl

namespace Report

/-- The exit code and the output are those of the execution. -/
lemma code_out_ofSource (log : Logger τ) (file : Option String) (source : Source)
    (limit : Option Nat) (out : σ) (err : τ) :
    let run := (Machine.start source limit).execute out
    let report := ofSource log file source limit out err
    report.code = run.exitCode ∧ report.out = run.out := by
  cases failed : ((Machine.start source limit).execute out).failure with
  | none => simp only [ofSource, failed, and_self]
  | some failure => simp only [ofSource, failed, and_self]

/-- A process that runs a program shows what it has for standard error. -/
lemma shows_ofSource (file : Option String) (source : Source) (limit : Option Nat) (out : σ) :
    Shows (fun _ _ log err => (ofSource log file source limit out err).err)
      (fun refusal => (Machine.start source limit).pieces file refusal out) := by
  have records := Entry.answered_map_record
  let run := (Machine.start source limit).execute out
  cases failed : ((Machine.start source limit).execute out).failure with
  | none =>
    simp only [Machine.pieces_of_ok _ _ failed]
    refine ⟨fun refusal => records refusal _, fun τ _ log err => ?_,
      fun τ _ log err refusal _ => ?_⟩
    · exact ⟨none, log.answers_map_record err _⟩
    · rw [← Logger.offer_eq_foldl_put]
      simp only [ofSource, failed]
  | some failure =>
    simp only [Machine.pieces_of_failure _ _ failed]
    refine ⟨fun refusal => ?_, fun τ _ log err => ?_, fun τ _ log err refusal answers => ?_⟩
    · exact List.forall_mem_append.mpr
        ⟨records refusal _, List.forall_mem_cons.mpr ⟨rfl, records refusal _⟩⟩
    · let start := log.offer (.sourceOpened file :: run.events) err
      exact ⟨(Sink.write start (Text.encode failure.report)).1,
        (log.answers_between err _ _ _ _).mpr rfl⟩
    · -- the report is offered behind the records of the run, and its answer decides the rest
      rw [Logger.answers_between] at answers
      rw [Logger.foldl_put_between]
      simp only [ofSource, failed, Failure.reportTo_eq, answers]

/-! ## Processes -/

/-- The program that a process runs, if it comes to that: the name of its file, its source, and the
limit of the stack. -/
def program? (parse : List String → Except Usage Arguments)
    (openPath : String → Except String Opened) (stdin : List UInt8) (arguments : List String) :
    Option (Option String × Source × Option Nat) :=
  match parse arguments with
  | .error _ => none
  | .ok ⟨none, limit⟩ => some (none, .listing (.ofBytes .interactive stdin), limit)
  | .ok ⟨some file, limit⟩ =>
    match openPath file with
    | .ok opened => some (some file, sourceOf opened, limit)
    | .error _ => none

variable {parse : List String → Except Usage Arguments}
  {openPath : String → Except String Opened} {stdin : List UInt8} {arguments : List String}

/-- A process that comes to run a program does no more than that. -/
lemma ofArguments_of_program? {file : Option String} {source : Source} {limit : Option Nat}
    (h : program? parse openPath stdin arguments = some (file, source, limit)) (log : Logger τ)
    (out : σ) (err : τ) :
    ofArguments parse openPath stdin arguments log out err =
      ofSource log file source limit out err := by
  cases parsed : parse arguments with
  | error usage =>
    rw [program?, parsed] at h
    cases h
  | ok request =>
    obtain ⟨name, size⟩ := request
    rw [program?, parsed] at h
    rw [ofArguments, parsed]
    cases name with
    | none =>
      cases h
      rfl
    | some name =>
      dsimp only at h ⊢
      cases opened : openPath name with
      | error reason =>
        rw [opened] at h
        cases h
      | ok program =>
        rw [opened] at h
        cases h
        rfl

/-- A process that does not come to run a program writes a text, and ends with a code that depends
on the answer. -/
lemma ofArguments_of_no_program (none : program? parse openPath stdin arguments = none) (out : σ) :
    ∃ (text : List UInt8) (code : Option String → Nat) (left : σ),
      ∀ (τ : Type) [Sink τ] (log : Logger τ) (err : τ),
        ofArguments parse openPath stdin arguments log out err =
          ⟨code (Sink.write err text).1, left, (Sink.write err text).2⟩ := by
  cases parsed : parse arguments with
  | error usage =>
    refine ⟨usage.err, fun _ => usage.code, (Sink.write out usage.out).2, fun τ _ log err => ?_⟩
    rw [ofArguments, parsed]
    rfl
  | ok request =>
    obtain ⟨name, size⟩ := request
    rw [program?, parsed] at none
    cases name with
    | none => cases none
    | some name =>
      dsimp only at none
      cases opened : openPath name with
      | ok program =>
        rw [opened] at none
        cases none
      | error reason =>
        refine ⟨Text.encode s!"Error: failed to read {name}: {reason}\n",
          fun refusal => if refusal.isNone then 1 else panicCode, out, fun τ _ log err => ?_⟩
        rw [ofArguments, parsed]
        dsimp only
        rw [opened]
        dsimp only
        unfold notOpened
        split
        · next taken => rw [taken]; rfl
        · next refused => rw [refused]; rfl

end Report

end

/-! ## Records as lines -/

namespace Text

/-- A text without those of its lines that are recognised. -/
def withoutLines (isRecord : List UInt8 → Bool) (bytes : List UInt8) : List UInt8 :=
  ((lines bytes).filter fun line => !isRecord line).flatten

variable {isRecord : List UInt8 → Bool} {line : String}

/-- A first line that is recognised is deleted. -/
lemma withoutLines_of_record (plain : IsPlain line)
    (marked : isRecord (encode (line ++ "\n")) = true) (rest : List UInt8) :
    withoutLines isRecord (encode (line ++ "\n") ++ rest) = withoutLines isRecord rest := by
  rw [withoutLines, lines_encode plain, List.filter_cons_of_neg (by simp [marked]), withoutLines]

/-- A first line that is not stays. -/
lemma withoutLines_of_text (plain : IsPlain line)
    (marked : isRecord (encode (line ++ "\n")) = false) (rest : List UInt8) :
    withoutLines isRecord (encode (line ++ "\n") ++ rest) =
      encode (line ++ "\n") ++ withoutLines isRecord rest := by
  rw [withoutLines, lines_encode plain, List.filter_cons_of_pos (by simp [marked]),
    List.flatten_cons, withoutLines]

/-- There is no newline among hexadecimal digits. -/
lemma newline_not_mem_hexDigits (n : Nat) : '\n' ∉ Nat.toDigits 16 n := by
  have digit : ∀ n < 16, '\n' ≠ Nat.digitChar n := by decide
  induction n using Nat.strongRecOn with
  | ind n ih =>
    by_cases small : n < 16
    · rw [Nat.toDigits_of_lt_base small, List.mem_singleton]
      exact digit n small
    · rw [Nat.toDigits_of_base_le (by decide) (Nat.le_of_not_lt small), List.mem_append,
        List.mem_singleton, not_or]
      exact ⟨ih (n / 16) (by omega), digit (n % 16) (Nat.mod_lt n (by decide))⟩

/-- An escaped character is no newline. -/
lemma newline_not_mem_escape (c : Char) : '\n' ∉ escape c := by
  unfold escape
  split
  · decide
  · decide
  · decide
  · decide
  · decide
  · decide
  · next notNewline _ _ =>
    split
    · simp only [List.mem_append, not_or]
      exact ⟨⟨by decide, newline_not_mem_hexDigits c.toNat⟩, by decide⟩
    · exact fun mem => notNewline (List.mem_singleton.mp mem).symm

/-- A quoted text has no newline in it, whatever the text. -/
lemma isPlain_quote (s : String) : IsPlain (quote s) := by
  refine IsPlain.append (IsPlain.append (by decide) ?_) (by decide)
  rw [IsPlain, String.toList_ofList]
  intro mem
  obtain ⟨c, -, mem⟩ := List.mem_flatMap.mp mem
  exact newline_not_mem_escape c mem

end Text

namespace Event

/-- There is no newline in the fields of a record. -/
def IsPlain (event : Event) : Prop := ∀ field ∈ event.fields, Text.IsPlain field.2

/-- An optional field has no newline if its text has none. -/
lemma isPlain_optional {field : Option String}
    (plain : ∀ text, field = some text → Text.IsPlain text) : Text.IsPlain (optional field) := by
  cases field with
  | none => decide +kernel
  | some text =>
    exact (Text.IsPlain.append (by decide +kernel) (plain text rfl)).append (by decide +kernel)

/-- The texts from elsewhere that a record repeats. -/
def repeated : Event → List String
  | runFailed failure => failure.error.quoted
  | notReported reason => [reason]
  | _ => []

open Text in
/-- A record has no newline, unless it repeats one. -/
lemma isPlain {event : Event} (repeats : ∀ text ∈ event.repeated, Text.IsPlain text) :
    event.IsPlain := by
  cases event with
  | sourceOpened path =>
    refine List.forall_mem_singleton.mpr (isPlain_optional fun text h => ?_)
    obtain ⟨path, -, rfl⟩ := Option.map_eq_some_iff.mp h
    exact isPlain_quote path
  | runStarted limit =>
    refine List.forall_mem_singleton.mpr (isPlain_optional fun text h => ?_)
    obtain ⟨limit, -, rfl⟩ := Option.map_eq_some_iff.mp h
    exact isPlain_toString limit
  | parsed line op =>
    refine List.forall_mem_cons.mpr ⟨isPlain_toString line, ?_⟩
    exact List.forall_mem_singleton.mpr op.isPlain_mnemonic
  | dispatch line op depth =>
    refine List.forall_mem_cons.mpr ⟨isPlain_toString line, ?_⟩
    refine List.forall_mem_cons.mpr ⟨op.isPlain_mnemonic, ?_⟩
    exact List.forall_mem_singleton.mpr (isPlain_toString depth)
  | arithmetic op kind left right =>
    refine List.forall_mem_cons.mpr ⟨op.isPlain_name, ?_⟩
    refine List.forall_mem_cons.mpr ⟨kind.isPlain_name, ?_⟩
    refine List.forall_mem_cons.mpr ⟨left.newline_not_mem_text, ?_⟩
    exact List.forall_mem_singleton.mpr right.newline_not_mem_text
  | runFinished depth | programFailed depth =>
    exact List.forall_mem_singleton.mpr (isPlain_toString depth)
  | runFailed failure =>
    refine List.forall_mem_cons.mpr ⟨isPlain_toString failure.line, ?_⟩
    exact List.forall_mem_singleton.mpr (Error.isPlain_message repeats)
  | notReported reason => exact List.forall_mem_singleton.mpr (List.forall_mem_singleton.mp repeats)

end Event

/-- A piece without newlines in it: such a record, or a report of one line. -/
def Entry.IsLine : Entry → Prop
  | record event => event.IsPlain
  | text bytes _ => ∃ failure : Failure,
      Text.IsPlain failure.message ∧ bytes = Text.encode failure.report

/-- A process that runs a text has lines for standard error, if that takes them. -/
lemma Machine.OverListing.isLine_of_mem_pieces {σ : Type} [Sink σ] {m : Machine} {out : σ}
    (reads : OverListing m out) (file : Option String) :
    ∀ entry ∈ m.pieces file none out, entry.IsLine := by
  have recorded : ∀ event ∈ Event.sourceOpened file :: (m.execute out).events, event.IsPlain := by
    refine List.forall_mem_cons.mpr ⟨Event.isPlain (List.forall_mem_nil _), fun event mem => ?_⟩
    apply Event.isPlain
    rcases mem_events_execute mem with rfl | mem | ⟨failure, failed, rfl⟩ | rfl
    · exact List.forall_mem_nil _
    · -- what a step records repeats nothing from elsewhere
      have detail := level_of_mem_events_drive mem
      cases event with
      | parsed | dispatch | arithmetic => exact List.forall_mem_nil _
      | _ => cases detail
    · exact reads.execute.2 failure failed
    · exact List.forall_mem_nil _
  cases failed : (m.execute out).failure with
  | none =>
    rw [pieces_of_ok _ _ failed]
    exact List.forall_mem_map.mpr recorded
  | some failure =>
    have plain := Failure.isPlain_message (Error.isPlain_message (reads.execute.2 failure failed))
    rw [pieces_of_failure _ _ failed]
    refine List.forall_mem_append.mpr ⟨List.forall_mem_map.mpr recorded, ?_⟩
    refine List.forall_mem_cons.mpr ⟨⟨failure, plain, rfl⟩, List.forall_mem_singleton.mpr ?_⟩
    exact Event.isPlain (List.forall_mem_nil _)

/-- What is assumed of a device and of the library that shows the log on it. `bytes` is what stands
on the device, and `isRecord` recognises the lines of the log. -/
structure Logger.WritesLines {τ : Type} [Sink τ] (log : Logger τ) (bytes : τ → List UInt8)
    (isRecord : List UInt8 → Bool) : Prop where
  /-- The device takes all texts and puts them behind what is there. -/
  taken : ∀ err text, (Sink.write err text).1 = none ∧
    bytes (Sink.write err text).2 = bytes err ++ text
  /-- A record without newlines in it is shown as a line, and recognised. -/
  shown : ∀ err (event : Event), event.IsPlain → ∃ line, Text.IsPlain line ∧
    bytes (log.emit err event) = bytes err ++ Text.encode (line ++ "\n") ∧
    isRecord (Text.encode (line ++ "\n")) = true
  /-- A report is not taken for a record. -/
  reported : ∀ failure : Failure, isRecord (Text.encode failure.report) = false

namespace Logger.WritesLines

variable {τ : Type} [Sink τ] {log : Logger τ} {bytes : τ → List UInt8}
  {isRecord : List UInt8 → Bool}

/-- The level makes no difference to how a record is shown. -/
lemma withLevel (writes : log.WritesLines bytes isRecord) (level : Level) :
    WritesLines { log with level := level } bytes isRecord :=
  ⟨writes.taken, writes.shown, writes.reported⟩

/-- Texts are taken. -/
lemma answers (writes : log.WritesLines bytes isRecord) {entries : List Entry}
    (answered : ∀ entry ∈ entries, entry.Answered none) (err : τ) : log.Answers err entries :=
  answers_of_answered (fun _ => True) (fun err text _ => ⟨(writes.taken err text).1, trivial⟩)
    (fun _ _ _ => trivial) answered trivial

/-- Among pieces of a line each, deleting the lines of the log leaves the texts. -/
lemma withoutLines_foldl_put (writes : log.WritesLines bytes isRecord) {entries : List Entry}
    (isLine : ∀ entry ∈ entries, entry.IsLine) (err : τ) :
    ∃ more, bytes (entries.foldl log.put err) = bytes err ++ more ∧
      Text.withoutLines isRecord more = (entries.filterMap Entry.bytes?).flatten := by
  induction entries generalizing err with
  | nil => exact ⟨[], (List.append_nil _).symm, rfl⟩
  | cons entry entries ih =>
    obtain ⟨first, rest⟩ := List.forall_mem_cons.mp isLine
    cases entry with
    | record event =>
      obtain ⟨line, plain, put, marked⟩ := writes.shown err event first
      obtain ⟨more, behind, texts⟩ := ih rest (log.emit err event)
      refine ⟨Text.encode (line ++ "\n") ++ more, ?_, ?_⟩
      · rw [List.foldl_cons, ← List.append_assoc, ← put]
        exact behind
      · rw [Text.withoutLines_of_record plain marked, texts]
        rfl
    | text report refusal =>
      obtain ⟨failure, plain, rfl⟩ := first
      obtain ⟨more, behind, texts⟩ := ih rest (Sink.write err (Text.encode failure.report)).2
      refine ⟨Text.encode failure.report ++ more, ?_, ?_⟩
      · rw [List.foldl_cons, ← List.append_assoc, ← (writes.taken err _).2]
        exact behind
      · exact (Text.withoutLines_of_text plain (writes.reported failure) more).trans
          (congrArg _ texts)

/-- Without records, what is written are the texts. -/
lemma bytes_foldl_put_of_texts (writes : log.WritesLines bytes isRecord) {entries : List Entry}
    (texts : ∀ entry ∈ entries, entry.event? = none) (err : τ) :
    bytes (entries.foldl log.put err) =
      bytes err ++ (entries.filterMap Entry.bytes?).flatten := by
  induction entries generalizing err with
  | nil => exact (List.append_nil _).symm
  | cons entry entries ih =>
    obtain ⟨first, rest⟩ := List.forall_mem_cons.mp texts
    cases entry with
    | record event => cases first
    | text report refusal =>
      have taken := (writes.taken err report).2
      rw [List.foldl_cons]
      refine (ih rest _).trans ?_
      rw [put, taken, List.append_assoc]
      rfl

end Logger.WritesLines

/-- A process that has lines for standard error leaves there, without the lines of the log, what it
leaves without logging. -/
lemma Shows.withoutLines {process : ∀ (τ : Type) [Sink τ], Logger τ → τ → τ}
    {pieces : Option String → List Entry} (shows : Shows process pieces)
    (isLine : ∀ entry ∈ pieces none, entry.IsLine) {τ : Type} [Sink τ] {log : Logger τ} {err : τ}
    {bytes : τ → List UInt8} {isRecord : List UInt8 → Bool}
    (writes : log.WritesLines bytes isRecord) (empty : bytes err = []) :
    Text.withoutLines isRecord (bytes (process τ log err)) =
      bytes (process τ { log with level := .off } err) := by
  have shown := shows.put τ log err none (writes.answers (shows.answered_filter _ none) err)
  have silent := shows.put τ { log with level := .off } err none
    ((writes.withLevel .off).answers (shows.answered_filter _ none) err)
  obtain ⟨more, behind, texts⟩ := writes.withoutLines_foldl_put
    (fun entry mem => isLine entry (List.mem_of_mem_filter mem)) err
  have noRecords : ∀ entry ∈ (pieces none).filter (·.isShown .off), entry.event? = none := by
    intro entry mem
    have off := entry.isShown_off ▸ (List.mem_filter.mp mem).2
    exact Option.isNone_iff_eq_none.mp off
  rw [shown, behind, empty, List.nil_append, texts, silent,
    (writes.withLevel .off).bytes_foldl_put_of_texts noRecords, empty, List.nil_append,
    Entry.filterMap_bytes, Entry.filterMap_bytes]

/-- A standard error with a clock, by which records are dated. -/
structure Tape where
  bytes : List UInt8
  clock : Nat

namespace Tape

instance : Sink Tape where
  write err text := (none, { err with bytes := err.bytes ++ text })
  flush err := (none, err)

/-- The line of a record: the time, what it says, and its fields. -/
def line (clock : Nat) (event : Event) : String :=
  "[" ++ event.fields.foldl (fun line field => line ++ " " ++ field.2)
    (toString clock ++ "] " ++ Text.quote event.message)

/-- A library that dates the records that it shows. -/
def logger (level : Level) : Logger Tape where
  level := level
  emit err event := ⟨err.bytes ++ Text.encode (line err.clock event ++ "\n"), err.clock + 1⟩

/-- A line with a date in front. -/
def isDated (line : List UInt8) : Bool := line.head? == some 91

/-- The line of a record has no newline in it, if the record has none. -/
lemma isPlain_line (clock : Nat) {event : Event} (plain : event.IsPlain) :
    Text.IsPlain (line clock event) := by
  have start : Text.IsPlain (toString clock ++ "] " ++ Text.quote event.message) :=
    ((Text.isPlain_toString clock).append (by decide +kernel)).append
      (Text.isPlain_quote event.message)
  refine Text.IsPlain.append (by decide +kernel) ?_
  refine List.foldlRecOn event.fields _ start fun line before field mem => ?_
  exact (before.append (by decide +kernel)).append (plain field mem)

/-- Reports are told from records by their first letter. -/
lemma isDated_report (failure : Failure) : isDated (Text.encode failure.report) = false := by
  have report : failure.report = "L" ++
      ("ine " ++ toString failure.line ++ " : Error : " ++ failure.error.message ++ "\n") := by
    simp only [Failure.report, Failure.message, ← String.append_assoc]
    rfl
  have first : Text.encode "L" = [76] := by decide +kernel
  rw [report, Text.encode_append, first]
  rfl

/-- On a tape, records are dated lines. -/
lemma writesLines_logger (level : Level) : (logger level).WritesLines bytes isDated where
  taken _ _ := ⟨rfl, rfl⟩
  shown err event plain := by
    refine ⟨line err.clock event, isPlain_line err.clock plain, rfl, ?_⟩
    have first : Text.encode "[" = [91] := by decide +kernel
    rw [line, String.append_assoc, Text.encode_append, first]
    rfl
  reported := isDated_report

end Tape

/-! ## Processes at two levels -/

namespace Report

variable {σ : Type} [Sink σ] (parse : List String → Except Usage Arguments)
  (openPath : String → Except String Opened) (stdin : List UInt8) (arguments : List String)

/-- Standard error of a process, if it is a console that refuses texts for the given reason, or
none. -/
def console (out : σ) (level : Level) (refusal : Option String) : Console :=
  (ofArguments parse openPath stdin arguments (Console.logger level) out ⟨[], refusal⟩).err

variable {parse openPath stdin arguments} in
/-- A process that comes to run a program shows what it has for standard error. -/
lemma shows_of_program? {file : Option String} {source : Source} {limit : Option Nat}
    (runs : program? parse openPath stdin arguments = some (file, source, limit)) (out : σ) :
    Shows (fun _ _ log err => (ofArguments parse openPath stdin arguments log out err).err)
      (fun refusal => (Machine.start source limit).pieces file refusal out) := by
  simp only [ofArguments_of_program? runs]
  exact shows_ofSource file source limit out

/-- Every process shows pieces, and those that it shows where texts are taken are no warnings. -/
lemma exists_shows (out : σ) : ∃ pieces,
    Shows (fun _ _ log err => (ofArguments parse openPath stdin arguments log out err).err)
      pieces ∧
    ∀ event ∈ (pieces none).filterMap Entry.event?, event.level ≠ .warn := by
  cases runs : program? parse openPath stdin arguments with
  | some program =>
    obtain ⟨file, source, limit⟩ := program
    exact ⟨_, shows_of_program? runs out, Machine.level_of_mem_pieces⟩
  | none =>
    obtain ⟨text, code, left, process⟩ := ofArguments_of_no_program runs out
    refine ⟨fun refusal => [.text text refusal], ?_, List.forall_mem_nil _⟩
    simp only [process]
    exact shows_text text

/-- The log makes no difference to the exit code and the output of a process. -/
lemma code_out_ofArguments {τ : Type} [Sink τ] (log log' : Logger τ) (out : σ) (err : τ) :
    let report := ofArguments parse openPath stdin arguments log out err
    let report' := ofArguments parse openPath stdin arguments log' out err
    report.code = report'.code ∧ report.out = report'.out := by
  cases runs : program? parse openPath stdin arguments with
  | some program =>
    obtain ⟨file, source, limit⟩ := program
    obtain ⟨code, output⟩ := code_out_ofSource log file source limit out err
    obtain ⟨code', output'⟩ := code_out_ofSource log' file source limit out err
    rw [ofArguments_of_program? runs, ofArguments_of_program? runs]
    exact ⟨code.trans code'.symm, output.trans output'.symm⟩
  | none =>
    obtain ⟨text, code, left, process⟩ := ofArguments_of_no_program runs out
    rw [process, process]
    exact ⟨rfl, rfl⟩

/-- Whatever the parser, the arguments, the files and the input of a process are, the log makes no
difference to its exit code and its output. At every level a console has, without the records, what
is there without logging, and has those of all records that the level shows; at the level `debug`
these are the ones of that level, if texts are taken. What becomes of any other standard error is
what the pieces on a console make of it that answers as it does, and there is such a console. If the
process comes to run a program, then its exit code and output are those of the execution, and the
records of the steps stand in the order of the steps between those of the start and the end of the
run, around the report of its failure; each step has one of the instruction that it fetched and one
of the operation that found its operands. If the program is a text and records are lines, deleting
these from standard error leaves what is there without logging. -/
theorem log_changes_nothing_else (out : σ) :
    let console := console parse openPath stdin arguments out
    (∀ (τ : Type) [Sink τ] (log log' : Logger τ) (err : τ),
      let report := ofArguments parse openPath stdin arguments log out err
      let report' := ofArguments parse openPath stdin arguments log' out err
      report.code = report'.code ∧ report.out = report'.out) ∧
    (∀ level refusal,
      (console level refusal).withoutRecords = (console .off refusal).entries ∧
      (console level refusal).records =
        (console .trace refusal).records.filter (·.isShown level)) ∧
    (console .debug none).records = (console .trace none).records.filter (·.level == .debug) ∧
    (∀ (τ : Type) [Sink τ] (log : Logger τ) (err : τ),
      (∃ refusal, log.Answers err (console log.level refusal).entries) ∧
      ∀ refusal, log.Answers err (console log.level refusal).entries →
        (ofArguments parse openPath stdin arguments log out err).err =
          (console log.level refusal).entries.foldl log.put err) ∧
    ∀ file source limit, program? parse openPath stdin arguments = some (file, source, limit) →
      let m := Machine.start source limit
      (∀ (τ : Type) [Sink τ] (log : Logger τ) (err : τ),
        let report := ofArguments parse openPath stdin arguments log out err
        report.code = (m.execute out).exitCode ∧ report.out = (m.execute out).out) ∧
      (∀ refusal,
        (console .trace refusal).entries = m.pieces file refusal out ∧
        (console .trace refusal).records.filter Event.isOfStep =
          (m.steps out).flatMap fun taken => taken.2.records taken.1) ∧
      ∀ l, source = .listing l → Sink.SpeaksPlainly out →
        ∀ (τ : Type) [Sink τ] (log : Logger τ) (err : τ) bytes isRecord,
          log.WritesLines bytes isRecord → bytes err = [] →
          let report := ofArguments parse openPath stdin arguments log out err
          let off := { log with level := .off }
          let silent := ofArguments parse openPath stdin arguments off out err
          Text.withoutLines isRecord (bytes report.err) = bytes silent.err := by
  intro console
  obtain ⟨pieces, shows, taken⟩ := exists_shows parse openPath stdin arguments out
  have onConsole : ∀ level refusal,
      console level refusal = ⟨(pieces refusal).filter (·.isShown level), refusal⟩ :=
    shows.console
  -- all levels choose from the same pieces
  have records : ∀ level refusal, (console level refusal).records =
      (console .trace refusal).records.filter (·.isShown level) := by
    intro level refusal
    rw [onConsole, onConsole, Console.records, Console.records, Entry.filterMap_isShown,
      Entry.filter_isShown_trace]
  refine ⟨fun τ _ log log' err => code_out_ofArguments _ _ _ _ log log' out err,
    fun level refusal => ⟨?_, records level refusal⟩, ?_, fun τ _ log err => ?_,
    fun file source limit runs => ?_⟩
  · rw [onConsole, onConsole]
    exact Entry.filter_isShown level (pieces refusal)
  · rw [records .debug none]
    refine List.filter_congr fun event mem => Event.isShown_debug (taken event ?_)
    rwa [onConsole, Console.records, Entry.filter_isShown_trace] at mem
  · simp only [onConsole]
    exact ⟨shows.answers τ log err, shows.put τ log err⟩
  · have ran := shows_of_program? runs out
    have traced : ∀ refusal,
        (console .trace refusal).entries =
          (Machine.start source limit).pieces file refusal out := by
      intro refusal
      rw [← Entry.filter_isShown_trace ((Machine.start source limit).pieces file refusal out)]
      exact congrArg Console.entries (ran.console .trace refusal)
    refine ⟨fun τ _ log err => ?_, fun refusal => ⟨traced refusal, ?_⟩, ?_⟩
    · rw [ofArguments_of_program? runs]
      exact code_out_ofSource log file source limit out err
    · rw [Console.records, traced]
      exact Machine.filter_pieces _ out file refusal
    · rintro l rfl plain τ _ log err bytes isRecord writes empty
      exact ran.withoutLines (Machine.OverListing.isLine_of_mem_pieces ⟨⟨l, rfl⟩, plain⟩ file)
        writes empty

/-- A text of which the last line overflows, in a file whose name is made to look like two records,
with dated records. -/
theorem log_changes_nothing_else_of_overflow :
    let parse := fun arguments => .ok ⟨arguments.head?, some 2⟩
    let openPath := fun _ => .ok (.file (Text.encode "push int8(127)\n\npush int8(1)\nadd\n"))
    let arguments := ["[0]\n[1] "]
    let source := .listing (.ofBytes .file (Text.encode "push int8(127)\n\npush int8(1)\nadd\n"))
    let process := fun level =>
      ofArguments parse openPath [] arguments (Tape.logger level) Buffer.unlimited ⟨[], 0⟩
    program? parse openPath [] arguments = some (some "[0]\n[1] ", source, some 2) ∧
    Sink.SpeaksPlainly Buffer.unlimited ∧
    (Tape.logger .trace).WritesLines Tape.bytes Tape.isDated ∧
    (console parse openPath [] arguments Buffer.unlimited .trace none).records.filter
      Event.isOfStep =
      [.dispatch 1 .push 0, .dispatch 3 .push 1, .dispatch 4 (.binary .add) 2,
        .arithmetic .add .int8 ⟨.int8, 127#8⟩ ⟨.int8, 1#8⟩] ∧
    Text.withoutLines Tape.isDated (process .trace).err.bytes = (process .off).err.bytes ∧
    (process .off).err.bytes =
      Text.encode "Line 4 : Error : overflow: add exceeds the int8 range\n" := by
  intro parse openPath arguments source process
  have runs : program? parse openPath [] arguments =
      some (some "[0]\n[1] ", source, some 2) := by
    decide +kernel
  have plain : Sink.SpeaksPlainly Buffer.unlimited := by
    refine Buffer.speaksPlainly (fun size reason full => ?_) (fun reason refused => ?_)
    · cases full
    · cases refused
  have writes := Tape.writesLines_logger .trace
  obtain ⟨-, records, lines⟩ :=
    (log_changes_nothing_else parse openPath [] arguments Buffer.unlimited).2.2.2.2 _ source _ runs
  refine ⟨runs, plain, writes, (records none).2.trans ?_, ?_, ?_⟩
  · decide +kernel
  · exact lines _ rfl plain Tape (Tape.logger .trace) ⟨[], 0⟩ Tape.bytes Tape.isDated writes rfl
  · decide +kernel

end Report

end TypedStack
