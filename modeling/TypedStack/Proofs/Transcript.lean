import TypedStack.Proofs.Lines
import TypedStack.Proofs.Parsing
import TypedStack.Proofs.Words

/-!
# Transcripts of listings

What a listing answers, pull by pull, said in terms of all its lines at once: the meanings of the
lines before the end that are not blank, each with the number of its line, and then `exit` for ever.
`Listing.ahead` and `Listing.lastLine` give the answers that are still to come from any state of a
listing; a pull takes one of them off.
-/

namespace TypedStack

namespace LineMeaning

/-- The meaning of a line: an unreadable line is an error, a line `;;` between blanks ends an
interactive text, and any other line means what it is parsed as. -/
def ofLine (mode : Mode) (line : List UInt8) : LineMeaning :=
  match Text.decode? line with
  | none => error (.device "stream did not contain valid UTF-8")
  | some text =>
    if mode = .interactive ∧ Text.trim text.toList = [';', ';'] then stop
    else match Instruction.parse text with
      | .ok none => blank
      | .ok (some i) => instruction i
      | .error e => error e

/-- A line stops if it is `;;` between blanks. -/
lemma isStop_iff_trim (line : String) :
    isStop line = true ↔ Text.trim line.toList = [';', ';'] := by
  have word : Text.IsWord [';', ';'] := .of_all rfl rfl
  rw [isStop, beq_iff_eq, Text.words_eq_singleton_iff_trim word]

/-- A line means what it means as a text between blanks. -/
lemma ofBytes_eq_ofLine (mode : Mode) (line : List UInt8) :
    ofBytes mode line = ofLine mode line := by
  unfold ofBytes ofLine
  cases Text.decode? line with
  | none => rfl
  | some text => exact if_congr (and_congr_right' (isStop_iff_trim text)) rfl rfl

/-- Whether nothing is read behind a line with this meaning. -/
def isEnd : LineMeaning → Bool
  | stop => true
  | instruction i => i.opcode == .exit
  | blank | error _ => false

/-- What a pull answers at a line with this meaning, unless it passes over the line. -/
def answer? : LineMeaning → Option (Except Error Instruction)
  | blank => none
  | stop => some (.ok .exit)
  | instruction i => some (.ok i)
  | error e => some (.error e)

/-- The only instruction at which a text ends is the plain `exit`. -/
lemma eq_exit_of_ofLine {mode : Mode} {line : List UInt8} {i : Instruction}
    (h : ofLine mode line = instruction i) (hop : i.opcode = .exit) : i = .exit := by
  unfold ofLine at h
  split at h
  · cases h
  · split at h
    · cases h
    · split at h
      · cases h
      · next parsed =>
        cases h
        have carries := Instruction.isSome_literal_of_parse parsed
        rw [hop] at carries
        obtain ⟨opcode, literal⟩ := i
        cases literal with
        | none => rw [Instruction.exit, ← hop]
        | some l => cases carries
      · cases h

end LineMeaning

namespace Listing

/-- The meanings of all lines of a text. -/
def meanings (mode : Mode) (bytes : List UInt8) : List LineMeaning :=
  (Text.lines bytes).map (LineMeaning.ofLine mode)

/-- The answers of a text before its end, each with the number of its line, when its lines are
numbered from behind `line`. -/
def answersFrom (line : Nat) (meanings : List LineMeaning) :
    List (Except Error Instruction × Nat) :=
  ((meanings.zipIdx (line + 1)).takeWhile (!·.1.isEnd)).filterMap fun (meaning, n) =>
    meaning.answer?.map (·, n)

/-- The number of the line that ends a text, or of its last line if none does. -/
def endFrom (line : Nat) (meanings : List LineMeaning) : Nat :=
  ((meanings.zipIdx (line + 1)).find? (·.1.isEnd)).elim (line + meanings.length) (·.2)

/-- The answers to successive pulls, each with the number of the line that was read last. -/
def pulls : Nat → Listing → List (Except Error Instruction × Nat)
  | 0, _ => []
  | count + 1, l => (l.next.result, l.next.source.line) :: pulls count l.next.source

/-- What successive pulls leave of a listing. -/
def after : Nat → Listing → Listing
  | 0, l => l
  | count + 1, l => after count l.next.source

/-- The answers that a listing still gives before its end. -/
def ahead (l : Listing) : List (Except Error Instruction × Nat) :=
  if l.finished then [] else answersFrom l.line (meanings l.mode l.rest)

/-- The number of the line at which a listing ends. -/
def lastLine (l : Listing) : Nat :=
  if l.finished then l.line else endFrom l.line (meanings l.mode l.rest)

variable {mode : Mode} {bytes : List UInt8} {line : Nat} {meaning : LineMeaning}
  {ms : List LineMeaning}

/-- The meanings of a text, line by line from the front. -/
lemma meanings_eq_takeLine (h : bytes ≠ []) :
    meanings mode bytes =
      LineMeaning.ofBytes mode (Text.takeLine bytes).1 ::
        meanings mode (Text.takeLine bytes).2 := by
  rw [meanings, Text.lines_eq_takeLine h, List.map_cons, LineMeaning.ofBytes_eq_ofLine]
  rfl

/-- An end has no answer before it. -/
lemma answersFrom_of_isEnd (ends : meaning.isEnd = true) :
    answersFrom line (meaning :: ms) = [] := by
  simp [answersFrom, ends]

/-- An end is reached with its own line. -/
lemma endFrom_of_isEnd (ends : meaning.isEnd = true) : endFrom line (meaning :: ms) = line + 1 := by
  simp [endFrom, ends]

/-- A line that has an answer gives it first. -/
lemma answersFrom_of_answer {a : Except Error Instruction} (ends : meaning.isEnd = false)
    (ha : meaning.answer? = some a) :
    answersFrom line (meaning :: ms) = (a, line + 1) :: answersFrom (line + 1) ms := by
  simp [answersFrom, ends, ha]

/-- A blank line is only counted. -/
lemma answersFrom_blank : answersFrom line (.blank :: ms) = answersFrom (line + 1) ms := by
  simp [answersFrom, LineMeaning.isEnd, LineMeaning.answer?]

/-- A line that is no end is only counted. -/
lemma endFrom_of_not_isEnd (ends : meaning.isEnd = false) :
    endFrom line (meaning :: ms) = endFrom (line + 1) ms := by
  simp only [endFrom, List.zipIdx_cons, List.find?_cons, ends, List.length_cons]
  rw [Nat.add_right_comm line 1 ms.length, ← Nat.add_assoc line ms.length 1]

/-- The answers ahead of a listing that has not finished. -/
lemma ahead_running : ahead ⟨mode, bytes, line, false⟩ = answersFrom line (meanings mode bytes) :=
  rfl

/-- The last line of a listing that has not finished. -/
lemma lastLine_running : lastLine ⟨mode, bytes, line, false⟩ = endFrom line (meanings mode bytes) :=
  rfl

/-- A pull answers what is ahead, or `exit` at the last line if there is nothing ahead any more. -/
lemma pull_spec (mode : Mode) (bytes : List UInt8) (line : Nat) :
    let l : Listing := ⟨mode, bytes, line, false⟩
    let r := pull mode bytes line
    r.source.lastLine = l.lastLine ∧
      (l.ahead = (r.result, r.source.line) :: r.source.ahead ∨
        l.ahead = [] ∧ r.result = .ok .exit ∧ r.source.finished = true) := by
  fun_induction pull mode bytes line with
  | case1 line => exact ⟨rfl, .inr ⟨rfl, rfl, rfl⟩⟩
  | case2 line b bs rest blank ih =>
    -- a blank line adds nothing to what is ahead, so the induction hypothesis is the goal
    simp only [ahead_running, lastLine_running] at ih ⊢
    rw [meanings_eq_takeLine (List.cons_ne_nil b bs), blank, answersFrom_blank,
      endFrom_of_not_isEnd rfl]
    exact ih
  | case3 line b bs rest stop =>
    simp only [ahead_running, lastLine_running]
    rw [meanings_eq_takeLine (List.cons_ne_nil b bs), stop, answersFrom_of_isEnd rfl,
      endFrom_of_isEnd rfl]
    exact ⟨rfl, .inr ⟨rfl, trivial, trivial⟩⟩
  | case4 line b bs rest i instruction =>
    simp only [ahead_running, lastLine_running]
    rw [meanings_eq_takeLine (List.cons_ne_nil b bs), instruction]
    -- an `exit` is not ahead but the end
    by_cases hop : i.opcode = .exit
    · have ends : (LineMeaning.instruction i).isEnd = true := beq_iff_eq.mpr hop
      rw [LineMeaning.ofBytes_eq_ofLine] at instruction
      rw [answersFrom_of_isEnd ends, endFrom_of_isEnd ends,
        LineMeaning.eq_exit_of_ofLine instruction hop]
      exact ⟨rfl, .inr ⟨rfl, rfl, rfl⟩⟩
    · have ends : (LineMeaning.instruction i).isEnd = false := beq_false_of_ne hop
      rw [answersFrom_of_answer ends rfl, endFrom_of_not_isEnd ends, beq_false_of_ne hop]
      exact ⟨rfl, .inl rfl⟩
  | case5 line b bs rest e error =>
    simp only [ahead_running, lastLine_running]
    rw [meanings_eq_takeLine (List.cons_ne_nil b bs), error, answersFrom_of_answer rfl rfl,
      endFrom_of_not_isEnd rfl]
    exact ⟨rfl, .inl rfl⟩

/-- A listing gives the first answer ahead of it, or finishes. -/
lemma next_spec (l : Listing) :
    l.next.source.lastLine = l.lastLine ∧
      (l.ahead = (l.next.result, l.next.source.line) :: l.next.source.ahead ∨
        l.ahead = [] ∧ l.next.result = .ok .exit ∧ l.next.source.finished = true) := by
  obtain ⟨mode, rest, line, finished⟩ := l
  cases finished with
  | true => exact ⟨rfl, .inr ⟨rfl, rfl, rfl⟩⟩
  | false => exact pull_spec mode rest line

/-- A finished listing has nothing ahead. -/
lemma ahead_of_finished {l : Listing} (h : l.finished = true) : l.ahead = [] := if_pos h

/-- A finished listing stands at its last line. -/
lemma lastLine_of_finished {l : Listing} (h : l.finished = true) : l.lastLine = l.line := if_pos h

/-- A finished listing says `exit` and stays as it is. -/
lemma next_of_finished {l : Listing} (h : l.finished = true) : l.next = ⟨.ok .exit, l, []⟩ :=
  if_pos h

/-- The answer to every pull is one that is ahead or, behind those, `exit` at the last line. -/
lemma pulls_eq_map (count : Nat) (l : Listing) :
    pulls count l = (List.range count).map fun k =>
      l.ahead.getD k (Except.ok .exit, l.lastLine) := by
  induction count generalizing l with
  | zero => rfl
  | succ count ih =>
    rw [pulls, ih, List.range_succ_eq_map, List.map_cons, List.map_map]
    obtain ⟨last, ahead | ⟨ahead, exit, finished⟩⟩ := l.next_spec
    · rw [ahead, last]
      rfl
    · rw [ahead, ahead_of_finished finished, exit, ← last, lastLine_of_finished finished]
      rfl

/-- A finished listing stays as it is for any number of pulls. -/
lemma after_of_finished {l : Listing} (h : l.finished = true) (count : Nat) :
    after count l = l := by
  induction count with
  | zero => rfl
  | succ count ih => rw [after, next_of_finished h, ih]

/-- Once all that is ahead and one `exit` are answered, the listing is finished. -/
lemma finished_after {count : Nat} {l : Listing} (h : l.ahead.length < count) :
    (after count l).finished = true := by
  induction count generalizing l with
  | zero => exact absurd h (Nat.not_lt_zero _)
  | succ count ih =>
    obtain ⟨-, ahead | ⟨-, -, finished⟩⟩ := l.next_spec
    · rw [ahead, List.length_cons] at h
      exact ih (Nat.lt_of_succ_lt_succ h)
    · rw [after, after_of_finished finished]
      exact finished

/-- Pulls can be counted in two parts. -/
lemma after_add (count more : Nat) (l : Listing) :
    after (count + more) l = after more (after count l) := by
  induction count generalizing l with
  | zero => rw [Nat.zero_add, after]
  | succ count ih => rw [Nat.succ_add, after, ih, after]

/-- A pull reads as many lines as it counts. -/
lemma lines_rest_pull (mode : Mode) (bytes : List UInt8) (line : Nat) :
    let r := pull mode bytes line
    ∃ count, r.source.line = line + count ∧
      Text.lines r.source.rest = (Text.lines bytes).drop count := by
  fun_induction pull mode bytes line with
  | case1 line => exact ⟨0, rfl, rfl⟩
  | case2 line b bs rest _ ih =>
    obtain ⟨count, hline, hrest⟩ := ih
    refine ⟨count + 1, ?_, ?_⟩
    · rw [hline, Nat.add_assoc, Nat.add_comm 1]
    · rw [hrest, Text.lines_eq_takeLine (List.cons_ne_nil b bs), List.drop_succ_cons]
  | case3 line b bs rest _ =>
    exact ⟨1, rfl, by rw [Text.lines_eq_takeLine (List.cons_ne_nil b bs)]; rfl⟩
  | case4 line b bs rest i _ =>
    exact ⟨1, rfl, by rw [Text.lines_eq_takeLine (List.cons_ne_nil b bs)]; rfl⟩
  | case5 line b bs rest e _ =>
    exact ⟨1, rfl, by rw [Text.lines_eq_takeLine (List.cons_ne_nil b bs)]; rfl⟩

/-- What is left to read is what is behind the lines that were counted. -/
lemma lines_rest_next {l : Listing} (h : Text.lines l.rest = (Text.lines bytes).drop l.line) :
    Text.lines l.next.source.rest = (Text.lines bytes).drop l.next.source.line := by
  obtain ⟨mode, rest, line, finished⟩ := l
  cases finished with
  | true => exact h
  | false =>
    obtain ⟨count, hline, hrest⟩ := lines_rest_pull mode rest line
    show Text.lines (pull mode rest line).source.rest =
      (Text.lines bytes).drop (pull mode rest line).source.line
    rw [hrest, hline, ← List.drop_drop, ← h]

/-- What is not read yet are the lines behind the one that was read last. -/
lemma lines_rest_after (mode : Mode) (bytes : List UInt8) (count : Nat) :
    Text.lines (after count (ofBytes mode bytes)).rest =
      (Text.lines bytes).drop (after count (ofBytes mode bytes)).line := by
  induction count with
  | zero => rfl
  | succ count ih =>
    rw [after_add]
    exact lines_rest_next ih

/-- Pulling a text line by line gives the meanings of its lines that are not blank, in order and
each with its line number, up to the first `exit` or line `;;` or else the end of the text, and from
then on `exit` with the number of that line. Nothing is read beyond the line that was counted last,
and nothing changes any more behind the end. -/
theorem pulls_ofBytes (mode : Mode) (bytes : List UInt8) (count : Nat) :
    let answers := answersFrom 0 (meanings mode bytes)
    let last := endFrom 0 (meanings mode bytes)
    pulls count (ofBytes mode bytes) =
      (List.range count).map (fun k => answers.getD k (.ok .exit, last)) ∧
    (after count (ofBytes mode bytes)).rest =
      ((Text.lines bytes).drop (after count (ofBytes mode bytes)).line).flatten ∧
    after (answers.length + 1 + count) (ofBytes mode bytes) =
      after (answers.length + 1) (ofBytes mode bytes) := by
  refine ⟨pulls_eq_map count _, ?_, ?_⟩
  · rw [← lines_rest_after, Text.flatten_lines]
  · rw [after_add]
    exact after_of_finished (finished_after (l := ofBytes mode bytes) (Nat.lt_succ_self _)) count

end Listing

end TypedStack
