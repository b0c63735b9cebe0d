import Mathlib.Data.List.Basic
import TypedStack.Proofs.Execution
import TypedStack.Proofs.Outcome

/-!
# Records of a run

What the machine records of its work, step by step. A step records what its source has read, then
the instruction that was fetched, and then the operation, if it is one that finds its operands. All
this is detail: nothing of it is shown unless everything is.
-/

namespace TypedStack

/-! ## Levels -/

namespace Event

/-- With the log off nothing is shown. -/
lemma isShown_off (event : Event) : event.isShown .off = false := by
  cases event <;> rfl

/-- At the level of everything everything is shown. -/
lemma isShown_trace (event : Event) : event.isShown .trace = true := by
  cases event <;> rfl

/-- At the level `debug` those of its own level are shown, beside warnings. -/
lemma isShown_debug {event : Event} (noWarning : event.level ≠ .warn) :
    event.isShown .debug = (event.level == .debug) := by
  cases event with
  | notReported => exact absurd rfl noWarning
  | _ => rfl

end Event

namespace Logger

variable {τ : Type} {log : Logger τ}

/-- Records are offered in their order. -/
lemma offer_append (log : Logger τ) (events more : List Event) (err : τ) :
    log.offer (events ++ more) err = log.offer more (log.offer events err) := by
  rw [offer, List.filter_append, List.foldl_append, offer, offer]

/-- Records that the level does not show change nothing. -/
lemma offer_of_hidden {events : List Event}
    (hidden : ∀ event ∈ events, event.isShown log.level = false) (err : τ) :
    log.offer events err = err := by
  have none : events.filter (·.isShown log.level) = [] :=
    List.filter_eq_nil_iff.mpr fun event h => Bool.eq_false_iff.mp (hidden event h)
  rw [offer, none, List.foldl_nil]

end Logger

/-! ## Records of a step -/

/-- The record of an operation on the two operands that it finds on top of the stack. -/
def Instruction.operation (i : Instruction) (s : Stack) : List Event :=
  match i.opcode, s.items with
  | .binary op, right :: left :: _ => [.arithmetic op (left.kind.promote right.kind) left right]
  | _, _ => []

/-- The records that the machine `m` makes of the instruction that it fetched in a step: one at the
line of the source and with the size of the stack before the instruction, and one of the
operation. -/
def Step.records {σ : Type} (m : Machine) (step : Step σ) : List Event :=
  match step.fetched with
  | none => []
  | some i => .dispatch step.machine.line i.opcode m.stack.size :: i.operation m.stack

/-- The record is about an instruction that was fetched. -/
def Event.isOfStep : Event → Bool
  | dispatch .. | arithmetic .. => true
  | _ => false

variable {σ : Type}

namespace Effect

/-- A push is not recorded. -/
lemma events_push (x : Operand) (s : Stack) (out : σ) : (push x s out).events = [] := by
  unfold push
  split <;> rfl

/-- An operation is recorded if it finds its operands, whether or not it succeeds. -/
lemma events_binary (op : BinaryOp) (s : Stack) (out : σ) :
    (binary op s out).events = Instruction.operation ⟨.binary op, none⟩ s := by
  rcases s.size_lt_two_or_pair with few | ⟨y, x, rest, items⟩
  · rw [binary_of_few few, Instruction.operation]
    split
    · next items =>
      rw [Stack.size, items] at few
      exact absurd few (Nat.not_lt.mpr (Nat.le_add_left 2 _))
    · rfl
  · rw [Instruction.operation, items]
    -- the record is made before the operation is tried
    cases happly : x.apply op y with
    | error e =>
      rw [binary_of_error items happly]
      rfl
    | ok z =>
      rw [binary_of_ok items happly, record, events_push]

variable [Sink σ]

/-- Writing is not recorded. -/
lemma events_write (chunks : List (List UInt8)) (s : Stack) (out : σ) :
    (write chunks s out).events = [] := by
  unfold write
  split <;> rfl

/-- Of an instruction its operation is recorded. -/
lemma events_ofInstruction (i : Instruction) (s : Stack) (out : σ) :
    (ofInstruction i s out).events = i.operation s := by
  obtain ⟨op, literal⟩ := i
  cases op with
  | push =>
    unfold ofInstruction
    dsimp only
    split
    · exact events_push _ s out
    · rfl
  | assert =>
    unfold ofInstruction assert
    dsimp only
    split
    · split <;> rfl
    · rfl
  | pop =>
    show (pop s out).events = []
    unfold pop
    split <;> rfl
  | dump => exact events_write _ s out
  | binary op => exact events_binary op s out
  | print =>
    show (print s out).events = []
    unfold print
    split
    · rfl
    · exact events_write _ s out
    · rfl
  | exit => rfl

end Effect

/-- A text records only what it has read. -/
lemma Listing.parsed_of_mem_pull {mode : Mode} {bytes : List UInt8} {line : Nat} {event : Event}
    (h : event ∈ (pull mode bytes line).events) : ∃ line op, event = .parsed line op := by
  fun_induction pull mode bytes line with
  | case1 | case3 | case5 => cases h
  | case2 line b bs rest _ ih => exact ih h
  | case4 line b bs rest i => exact ⟨line + 1, i.opcode, List.mem_singleton.mp h⟩

/-- A source records no more than that it has read a line. -/
lemma Source.parsed_of_mem_next {s : Source} {event : Event} (h : event ∈ s.next.events) :
    ∃ line op, event = .parsed line op := by
  cases s with
  | program p =>
    obtain ⟨rest, line⟩ := p
    cases rest <;> cases h
  | listing l =>
    obtain ⟨mode, rest, line, finished⟩ := l
    cases finished with
    | true => cases h
    | false => exact Listing.parsed_of_mem_pull h
  | unreadable line reason => cases h

/-- A step records what its source does, and then the instruction. -/
lemma Machine.events_step [Sink σ] (m : Machine) (out : σ) :
    (m.step out).events = m.source.next.events ++ (m.step out).records m := by
  cases h : m.source.next.result with
  | error e =>
    rw [step_of_pull_error h]
    exact (List.append_nil _).symm
  | ok i =>
    rw [step_of_pull_ok h]
    dsimp only
    rw [Effect.events_ofInstruction]
    rfl

/-- The record of an operation is one of arithmetic. -/
lemma Instruction.arithmetic_of_mem_operation {i : Instruction} {s : Stack} {event : Event}
    (h : event ∈ i.operation s) : ∃ op kind left right, event = .arithmetic op kind left right := by
  unfold operation at h
  split at h
  · exact ⟨_, _, _, _, List.mem_singleton.mp h⟩
  · cases h

namespace Step

/-- The records of an instruction are about a step. -/
lemma isOfStep_of_mem_records {m : Machine} {step : Step σ} {event : Event}
    (h : event ∈ step.records m) :
    event.isOfStep = true := by
  unfold records at h
  split at h
  · cases h
  · rcases List.mem_cons.mp h with rfl | h
    · rfl
    · obtain ⟨op, kind, left, right, rfl⟩ := Instruction.arithmetic_of_mem_operation h
      rfl

/-- Of what a step records, the records of its instruction are about the step. -/
lemma filter_records (m : Machine) (step : Step σ) :
    (m.source.next.events ++ step.records m).filter Event.isOfStep = step.records m := by
  have source : m.source.next.events.filter Event.isOfStep = [] := by
    refine List.filter_eq_nil_iff.mpr fun event h => ?_
    obtain ⟨line, op, rfl⟩ := Source.parsed_of_mem_next h
    exact Bool.false_ne_true
  rw [List.filter_append, source, List.nil_append]
  exact List.filter_eq_self.mpr fun event h => isOfStep_of_mem_records h

end Step

/-! ## Records of a drive -/

namespace Machine

variable [Sink σ]

/-- The steps that a drive takes, in their order, each with the machine that takes it. -/
def steps (m : Machine) (out : σ) : List (Machine × Step σ) :=
  if m.halted then []
  else
    let step := m.step out
    match _h : step.error with
    | some _ => [(m, step)]
    | none => (m, step) :: steps step.machine step.out
termination_by m.remaining
decreasing_by exact remaining_step_lt ‹_› ‹_›

/-- A drive records, step by step, what the source does and then the instruction. -/
lemma events_drive (m : Machine) (out : σ) :
    (m.drive out).events =
      (m.steps out).flatMap fun taken => taken.1.source.next.events ++ taken.2.records taken.1 := by
  -- `steps` takes the same turns as `drive`
  fun_induction steps m out with
  | case1 m out halted => rw [drive_of_halted halted, List.flatMap_nil]
  | case2 m out running step e he =>
    rw [drive_of_error (Bool.eq_false_iff.mpr running) he, List.flatMap_singleton]
    exact events_step m out
  | case3 m out running step ok ih =>
    rw [drive_of_ok (Bool.eq_false_iff.mpr running) ok, List.flatMap_cons, ← ih]
    exact congrArg (· ++ _) (events_step m out)

/-- Of what a drive records, the records of its instructions are about its steps. -/
lemma filter_events_drive (m : Machine) (out : σ) :
    (m.drive out).events.filter Event.isOfStep =
      (m.steps out).flatMap fun taken => taken.2.records taken.1 := by
  rw [events_drive, List.filter_flatMap]
  exact List.flatMap_congr fun taken _ => Step.filter_records taken.1 taken.2

/-- Whatever a drive records is detail. -/
lemma level_of_mem_events_drive {m : Machine} {out : σ} {event : Event}
    (h : event ∈ (m.drive out).events) :
    event.level = .trace := by
  rw [events_drive] at h
  obtain ⟨taken, -, h⟩ := List.mem_flatMap.mp h
  rcases List.mem_append.mp h with h | h
  · obtain ⟨line, op, rfl⟩ := Source.parsed_of_mem_next h
    rfl
  · have isOfStep := Step.isOfStep_of_mem_records h
    cases event with
    | dispatch | arithmetic => rfl
    | _ => cases isOfStep

/-- An execution records its beginning, its drive, and how it ended. -/
lemma events_execute (m : Machine) (out : σ) :
    (m.execute out).events =
      .runStarted m.stack.limit :: (m.drive out).events ++
        [match (m.execute out).failure with
          | some failure => .runFailed failure
          | none => .runFinished (m.execute out).machine.stack.size] := rfl

/-- Each record of an execution is one of its beginning, of its drive, of its failure or of its
end. -/
lemma mem_events_execute {m : Machine} {out : σ} {event : Event}
    (h : event ∈ (m.execute out).events) :
    event = .runStarted m.stack.limit ∨ event ∈ (m.drive out).events ∨
      (∃ failure, (m.execute out).failure = some failure ∧ event = .runFailed failure) ∨
      event = .runFinished (m.execute out).machine.stack.size := by
  rw [events_execute, List.cons_append, List.mem_cons, List.mem_append, List.mem_singleton] at h
  rcases h with h | h | h
  · exact .inl h
  · exact .inr (.inl h)
  · cases failed : (m.execute out).failure with
    | some failure =>
      rw [failed] at h
      exact .inr (.inr (.inl ⟨failure, rfl, h⟩))
    | none =>
      rw [failed] at h
      exact .inr (.inr (.inr h))

/-- What an execution records is shown at no level that is chosen for less than its progress. -/
lemma isShown_of_mem_events_execute {m : Machine} {out : σ} {event : Event} {level : Level}
    (quiet : level.rank < Level.debug.rank) (h : event ∈ (m.execute out).events) :
    event.isShown level = false := by
  have least : Level.debug.rank ≤ event.level.rank := by
    rcases mem_events_execute h with rfl | h | ⟨failure, -, rfl⟩ | rfl
    · exact Nat.le_refl _
    · rw [level_of_mem_events_drive h]
      decide
    · exact Nat.le_refl _
    · exact Nat.le_refl _
  exact decide_eq_false (Nat.not_le.mpr (Nat.lt_of_lt_of_le quiet least))

end Machine

end TypedStack
