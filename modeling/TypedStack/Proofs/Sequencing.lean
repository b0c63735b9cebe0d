import TypedStack.Proofs.Agreement
import TypedStack.Proofs.Capacity

/-!
# Code behind code

What a program does when more code is put behind it. If it fails or comes to an `exit` of its own,
the code behind it is never looked at. If it runs through, a call goes on with the code behind it
from the stack and output that it has come to, and counts lines from where it stands. The output is
flushed once, at the end of the call.
-/

namespace TypedStack

/-- The failure `n` lines further down. -/
def Failure.later (n : Nat) (failure : Failure) : Failure :=
  { failure with line := failure.line + n }

namespace Source

/-- The source with more code behind it, if it is a program in memory. -/
def extend (q : List Instruction) : Source → Source
  | program p => program ⟨p.rest ++ q, p.line⟩
  | s => s

/-- The source with `n` more lines counted. -/
def later (n : Nat) : Source → Source
  | program p => program ⟨p.rest, p.line + n⟩
  | listing l => listing { l with line := l.line + n }
  | unreadable line reason => unreadable (line + n) reason

/-- Code behind makes no difference to the line. -/
lemma line_extend (q : List Instruction) (s : Source) : (s.extend q).line = s.line := by
  cases s <;> rfl

/-- The lines are counted on. -/
lemma line_later (n : Nat) (s : Source) : (s.later n).line = s.line + n := by
  cases s <;> rfl

end Source

/-- The machine with more code behind its program. -/
def Machine.extend (q : List Instruction) (m : Machine) : Machine :=
  { m with source := m.source.extend q }

/-- The machine with `n` more lines counted. -/
def Machine.later (n : Nat) (m : Machine) : Machine := { m with source := m.source.later n }

/-- The step of a machine with more code behind its program. -/
def Step.extend {σ : Type} (q : List Instruction) (step : Step σ) : Step σ :=
  { step with machine := step.machine.extend q }

/-- The run of a machine with more code behind its program. -/
def Run.extend {σ : Type} (q : List Instruction) (run : Run σ) : Run σ :=
  { run with machine := run.machine.extend q }

/-- The same run `n` lines further down. -/
def Run.later {σ : Type} (n : Nat) (run : Run σ) : Run σ :=
  { run with machine := run.machine.later n, failure := run.failure.map (Failure.later n) }

namespace Machine

variable {σ τ : Type} [Sink σ] [Sink τ] {m m' : Machine} {out out' : σ} {i : Instruction}
  {p q : List Instruction} {s s' : Stack} {line count : Nat}

/-- A machine at the start of some code. -/
def loaded (p : List Instruction) (s : Stack) : Machine := ⟨.program (.ofList p), s, false⟩

/-- An instruction of the code fails. Whether the output can be flushed in the end is not the code's
affair. -/
def Fails (p : List Instruction) (s : Stack) (out : σ) : Prop :=
  ∃ failure, ((loaded p s).drive out).failure = some failure

/-- A run of the code comes to an `exit` in it. -/
def ReachesExit (p : List Instruction) (s : Stack) (out : σ) : Prop :=
  ∃ count m out' i, advance count (loaded p s) out = some (m, out') ∧ m.halted = false ∧
    p[count]? = some i ∧ i.opcode = .exit

/-- A run of the code gets behind its last instruction without a failure or an `exit`, and then has
the stack `s'` and the output `out'`. -/
def RunsThrough (p : List Instruction) (s : Stack) (out : σ) (s' : Stack) (out' : σ) : Prop :=
  advance p.length (loaded p s) out = some (⟨.program ⟨[], p.length⟩, s', false⟩, out')

/-- Code behind makes no difference to the line of a machine. -/
lemma line_extend (q : List Instruction) (m : Machine) : (m.extend q).line = m.line :=
  m.source.line_extend q

/-- The lines of a machine are counted on. -/
lemma line_later (n : Nat) (m : Machine) : (m.later n).line = m.line + n := m.source.line_later n

/-- As long as there is an instruction left, a step does not notice what is behind it. -/
lemma step_extend (source : m.source = .program ⟨i :: p, line⟩) (out : σ) :
    (m.extend q).step out = (m.step out).extend q := by
  obtain ⟨_, s, halted⟩ := m
  cases source
  rfl

/-- An `exit` halts the machine. -/
lemma halted_step_of_exit (source : m.source = .program ⟨i :: p, line⟩) (hop : i.opcode = .exit) :
    (m.step out).machine.halted = true := by
  rw [step_of_pull_ok (i := i) (by rw [source]; rfl)]
  simp [hop]

/-- While there are instructions left, steps do not notice what is behind them. -/
lemma advance_extend (source : m.source = .program ⟨p, line⟩) (le : count ≤ p.length) :
    advance count (m.extend q) out = (advance count m out).map (Prod.map (extend q) id) := by
  induction count generalizing m out p line with
  | zero => rfl
  | succ count ih =>
    cases p with
    | nil => cases le
    | cons i p =>
      have same := step_extend (q := q) source out
      have error : ((m.extend q).step out).error = (m.step out).error := by
        rw [same]
        rfl
      cases halted : m.halted with
      | true => simp [advance, extend, halted]
      | false =>
        cases he : (m.step out).error with
        | some e => simp [advance, error, he]
        | none =>
          rw [advance_of_ok halted he, advance_of_ok (m := m.extend q) halted (error.trans he),
            same]
          have behind : (m.step out).machine.source = .program ⟨p, line + 1⟩ := by
            rw [source_step, source]
            rfl
          exact ih behind (Nat.le_of_succ_le_succ le)

/-- A drive that ends by its next step, with a failure or an `exit`, does not notice what is
behind. -/
lemma quiet_drive_extend (source : m.source = .program ⟨i :: p, line⟩) (running : m.halted = false)
    (ends : (m.step out).error ≠ none ∨ i.opcode = .exit) :
    ((m.extend q).drive out).quiet = (m.drive out).quiet.extend q := by
  have same := step_extend (q := q) source out
  have error : ((m.extend q).step out).error = (m.step out).error := by
    rw [same]
    rfl
  cases he : (m.step out).error with
  | some e =>
    rw [drive_of_error running he, drive_of_error (m := m.extend q) running (error.trans he), same]
    simp only [Step.extend, line_extend]
    rfl
  | none =>
    have exits : i.opcode = .exit := ends.resolve_left fun failed => failed he
    have halted : (m.step out).machine.halted = true := halted_step_of_exit source exits
    rw [quiet_drive_of_ok running he, quiet_drive_of_ok (m := m.extend q) running (error.trans he),
      same, drive_of_halted halted, drive_of_halted (m := ((m.step out).extend q).machine) halted]
    rfl

/-- Lines are only counted, so code does the same further down. -/
lemma quiet_drive_later (p : List Instruction) (line n : Nat) (s : Stack) (out : σ) :
    (drive ⟨.program ⟨p, line + n⟩, s, false⟩ out).quiet =
      (drive ⟨.program ⟨p, line⟩, s, false⟩ out).quiet.later n := by
  induction p generalizing line s out with
  | nil =>
    rw [quiet_drive_program_nil, quiet_drive_program_nil]
    rfl
  | cons i p ih =>
    have next : line + n + 1 = line + 1 + n := Nat.add_right_comm line n 1
    cases he : (Effect.ofInstruction i s out).error with
    | some e =>
      rw [quiet_drive_program_of_error rfl he, quiet_drive_program_of_error rfl he, next]
      rfl
    | none =>
      by_cases exits : i.opcode = .exit
      · rw [quiet_drive_program_of_exit exits, quiet_drive_program_of_exit exits, next]
        rfl
      · rw [quiet_drive_program_of_ok exits rfl he, quiet_drive_program_of_ok exits rfl he, next]
        exact ih (line + 1) _ _

/-- A call ends in the same way further down. -/
lemma close_later (n : Nat) (run : Run σ) (err : τ) :
    ((run.later n).close err).1 = (run.close err).1.later n := by
  obtain ⟨m, out, failure, events⟩ := run
  cases failure with
  | some failure => rfl
  | none =>
    simp only [Run.close, Run.later, line_later]
    cases (Sink.flush out).1 with
    | none => rfl
    | some reason => rfl

/-- What can be seen of a call does not depend on the code that it has not come to. -/
lemma observe_close_extend (q : List Instruction) (run : Run σ) (err : τ) :
    observe ((run.extend q).close err) = observe (run.close err) := by
  simp only [Run.close, Run.extend, line_extend]
  rfl

/-! ### How code ends -/

/-- Code that ends inside, by a failure or an `exit`, does not notice what is behind. -/
lemma quiet_drive_append (stands : advance count (loaded p s) out = some (m, out'))
    (running : m.halted = false) (hi : p[count]? = some i)
    (ends : (m.step out').error ≠ none ∨ i.opcode = .exit) (q : List Instruction) :
    ((loaded (p ++ q) s).drive out).quiet = ((loaded p s).drive out).quiet.extend q := by
  obtain ⟨le, source, -⟩ := program_of_advance stands running
  obtain ⟨lt, rfl⟩ := List.getElem?_eq_some_iff.mp hi
  rw [List.drop_eq_getElem_cons lt] at source
  have behind : advance count (loaded (p ++ q) s) out = some (m.extend q, out') := by
    have whole : loaded (p ++ q) s = (loaded p s).extend q := rfl
    rw [whole, advance_extend rfl le, stands]
    rfl
  rw [quiet_drive_of_advance behind, quiet_drive_of_advance stands]
  exact quiet_drive_extend source running ends

/-- A failure of code is the failure of one of its instructions. -/
lemma Fails.exists_instruction (fails : Fails p s out) :
    ∃ count m out' i, advance count (loaded p s) out = some (m, out') ∧ m.halted = false ∧
      p[count]? = some i ∧ (m.step out').error ≠ none := by
  obtain ⟨failure, failed⟩ := fails
  obtain ⟨count, m, out', stands, running, failed⟩ := exists_advance_of_failure failed
  obtain ⟨e, he, -⟩ := Option.map_eq_some_iff.mp failed
  obtain ⟨le, source, -⟩ := program_of_advance stands running
  rcases Nat.lt_or_eq_of_le le with lt | rfl
  · refine ⟨count, m, out', p[count], stands, running, List.getElem?_eq_getElem lt, ?_⟩
    rw [he]
    exact Option.some_ne_none e
  · -- behind the last instruction stands an `exit`, which does not fail
    rw [List.drop_length] at source
    have ok : (m.step out').error = none := by
      rw [step_of_pull_ok (i := .exit) (by rw [source]; rfl)]
      rfl
    cases he.symm.trans ok

/-- Code that has not failed and has not come to an `exit` has got behind as many instructions as it
took steps. -/
lemma advance_or_ends (p : List Instruction) (s : Stack) (out : σ) (le : count ≤ p.length) :
    Fails p s out ∨ ReachesExit p s out ∨
      ∃ m out', advance count (loaded p s) out = some (m, out') ∧ m.halted = false := by
  induction count with
  | zero => exact .inr (.inr ⟨_, _, rfl, rfl⟩)
  | succ count ih =>
    rcases ih (Nat.le_of_succ_le le) with failed | exits | ⟨m, out', stands, running⟩
    · exact .inl failed
    · exact .inr (.inl exits)
    · have hi := List.getElem?_eq_getElem le
      by_cases hop : p[count].opcode = .exit
      · exact .inr (.inl ⟨count, m, out', p[count], stands, running, hi, hop⟩)
      · cases he : (m.step out').error with
        | some e => exact .inl ⟨_, failure_drive_of_advance stands running he⟩
        | none =>
          obtain ⟨-, source, -⟩ := program_of_advance stands running
          refine .inr (.inr ⟨_, _, advance_step stands running he, ?_⟩)
          rw [step_of_getElem? source running hi out']
          exact beq_false_of_ne hop

/-- There is no other way for code to end than to fail, to exit or to run through. -/
lemma fails_or_exits_or_runsThrough (p : List Instruction) (s : Stack) (out : σ) :
    Fails p s out ∨ ReachesExit p s out ∨ ∃ s' out', RunsThrough p s out s' out' := by
  rcases advance_or_ends p s out (Nat.le_refl _) with failed | exits | ⟨m, out', stands, running⟩
  · exact .inl failed
  · exact .inr (.inl exits)
  · obtain ⟨-, source, -⟩ := program_of_advance stands running
    rw [List.drop_length, Nat.zero_add] at source
    refine .inr (.inr ⟨m.stack, out', ?_⟩)
    rw [RunsThrough, stands, ← source, ← running]

namespace RunsThrough

/-- Code that runs through leaves the stack and output that it comes to. -/
lemma quiet_drive (through : RunsThrough p s out s' out') :
    ((loaded p s).drive out).quiet = ⟨⟨.program ⟨[], p.length⟩, s', true⟩, out', none, []⟩ := by
  rw [quiet_drive_of_advance through, quiet_drive_program_nil]

/-- Behind code that runs through, the code behind it goes on. -/
lemma quiet_drive_append (through : RunsThrough p s out s' out') (q : List Instruction) :
    ((loaded (p ++ q) s).drive out).quiet = ((loaded q s').drive out').quiet.later p.length := by
  have behind : advance p.length (loaded (p ++ q) s) out =
      some (⟨.program ⟨q, p.length⟩, s', false⟩, out') := by
    have whole : loaded (p ++ q) s = (loaded p s).extend q := rfl
    rw [whole, advance_extend rfl (Nat.le_refl _), through]
    rfl
  have later := quiet_drive_later q 0 p.length s' out'
  rw [Nat.zero_add] at later
  rw [quiet_drive_of_advance behind, later]
  rfl

end RunsThrough

/-- What a drive writes to a buffer that takes everything does not depend on what is in the
buffer. -/
lemma quiet_drive_holding (m : Machine) :
    ∃ m' failure more, ∀ bytes, (m.drive (Buffer.holding none none bytes)).quiet =
      ⟨m', .holding none none (bytes ++ more), failure, []⟩ := by
  -- by what is left to read, as the drive takes its turns before it is known what it writes
  induction h : m.remaining using Nat.strongRecOn generalizing m with
  | ind n ih =>
    subst h
    have step (bytes : List UInt8) : m.step (Buffer.holding none none bytes) =
        { m.step Buffer.unlimited with
          out := .holding none none (bytes ++ (m.step Buffer.unlimited).output) } :=
      step_holding (Buffer.takes_none _)
    cases halted : m.halted with
    | true =>
      refine ⟨m, none, [], fun bytes => ?_⟩
      rw [drive_of_halted halted, List.append_nil]
      rfl
    | false =>
      cases he : (m.step Buffer.unlimited).error with
      | some e =>
        let first := m.step Buffer.unlimited
        refine ⟨first.machine, some ⟨first.machine.line, e⟩, first.output, fun bytes => ?_⟩
        rw [drive_of_error halted (by rw [step]; exact he), step]
        rfl
      | none =>
        obtain ⟨m', failure, more, rest⟩ :=
          ih _ (remaining_step_lt (Bool.eq_false_iff.mp halted) he) _ rfl
        refine ⟨m', failure, (m.step Buffer.unlimited).output ++ more, fun bytes => ?_⟩
        rw [quiet_drive_of_ok halted (by rw [step]; exact he), step]
        dsimp only
        rw [rest, List.append_assoc]

/-- If an instruction of `p` fails or `p` comes to an `exit` of its own, a call for `p` with `q`
behind it does what a call for `p` does, whatever `q` is: it ends in the same way and at the same
line, with the same output, report, stack and state. Otherwise `p` runs through: a call for `p`
alone halts, with nothing left to fail but the flush, and a call for `p` with `q` behind it is a
call for `q` from the stack and output that `p` has come to, with all lines further down by the
length of `p`. Into a buffer that takes everything it writes what `p` writes followed by what `q`
writes. -/
theorem run_append (p q : List Instruction) (s : Stack) (out : σ) (err : τ) :
    (Fails p s out ∨ ReachesExit p s out →
      observe ((loaded (p ++ q) s).run out err) = observe ((loaded p s).run out err)) ∧
    (∀ s' out', RunsThrough p s out s' out' →
      let alone := (loaded p s).quietRun out err
      let rest := (loaded q s').quietRun out' err
      let whole := (loaded (p ++ q) s).quietRun out err
      alone = (⟨⟨.program ⟨[], p.length⟩, s', true⟩, out', none, []⟩ : Run σ).close err ∧
      whole.1 = rest.1.later p.length ∧ whole.2 = (Sink.writeAll err whole.1.report).2) ∧
    (∀ s' out', RunsThrough p s Buffer.unlimited s' out' →
      ((loaded (p ++ q) s).execute Buffer.unlimited).out.bytes =
        ((loaded p s).execute Buffer.unlimited).out.bytes ++
        ((loaded q s').execute Buffer.unlimited).out.bytes) ∧
    (Fails p s out ∨ ReachesExit p s out ∨ ∃ s' out', RunsThrough p s out s' out') := by
  refine ⟨fun ends => ?_, fun s' out' through => ?_, fun s' out' through => ?_,
    fails_or_exits_or_runsThrough p s out⟩
  · have drive : ((loaded (p ++ q) s).drive out).quiet =
        ((loaded p s).drive out).quiet.extend q := by
      rcases ends with fails | ⟨count, m, out', i, stands, running, hi, hop⟩
      · obtain ⟨count, m, out', i, stands, running, hi, failed⟩ := fails.exists_instruction
        exact quiet_drive_append stands running hi (.inl failed) q
      · exact quiet_drive_append stands running hi (.inr hop) q
    show observe ((loaded (p ++ q) s).quietRun out err) = observe ((loaded p s).quietRun out err)
    rw [quietRun_eq_close, quietRun_eq_close, drive]
    exact observe_close_extend q _ err
  · refine ⟨?_, ?_, run_err _ out err⟩
    · rw [quietRun_eq_close, through.quiet_drive]
    · rw [quietRun_eq_close, quietRun_eq_close, through.quiet_drive_append]
      exact close_later p.length _ err
  · obtain ⟨m, failure, first, written⟩ := quiet_drive_holding (loaded p s)
    obtain ⟨m', failure', second, written'⟩ := quiet_drive_holding (loaded q s')
    -- `q` starts with what `p` has written in the buffer
    have hout : out' = .holding none none first :=
      congrArg Run.out (through.quiet_drive.symm.trans (written []))
    have whole : ((loaded (p ++ q) s).drive Buffer.unlimited).out =
        .holding none none (first ++ second) := by
      have drive := congrArg Run.out (through.quiet_drive_append q)
      rw [hout] at drive
      exact drive.trans (congrArg Run.out (written' first))
    have alone : ((loaded p s).drive Buffer.unlimited).out = .holding none none first :=
      congrArg Run.out (written [])
    have rest : ((loaded q s').drive Buffer.unlimited).out = .holding none none second :=
      congrArg Run.out (written' [])
    rw [execute_out, execute_out, execute_out, whole, alone, rest]
    rfl

/-- A call that fails only because the output is not flushed has not failed in its code: with code
behind it, the call goes on and writes more. -/
theorem not_run_append_of_failed_flush :
    ¬ ∀ (p q : List Instruction) (s : Stack) (out err : Buffer),
      ((loaded p s).run out err).1.succeeded = false ∨ ReachesExit p s out →
        observe ((loaded (p ++ q) s).run out err) = observe ((loaded p s).run out err) := by
  intro same
  let p : List Instruction := [⟨.push, some ⟨.int8, "65"⟩⟩]
  let q : List Instruction := [⟨.print, none⟩]
  let out : Buffer := ⟨#[], none, some "flush failed"⟩
  have alone : ((loaded p (.empty none)).drive out).quiet =
      ⟨⟨.program ⟨[], 1⟩, .unlimited [⟨.int8, 65#8⟩], true⟩, out, none, []⟩ :=
    (quiet_drive_program_of_ok (by decide) rfl rfl).trans quiet_drive_program_nil
  have whole : ((loaded (p ++ q) (.empty none)).drive out).quiet =
      ⟨⟨.program ⟨[], 2⟩, .unlimited [⟨.int8, 65#8⟩], true⟩, { out with written := #[65] }, none,
        []⟩ :=
    (quiet_drive_program_of_ok (by decide) rfl rfl).trans
      ((quiet_drive_program_of_ok (by decide) rfl rfl).trans quiet_drive_program_nil)
  have failed : ((loaded p (.empty none)).quietRun out out).1.succeeded = false := by
    rw [quietRun_eq_close, alone]
    rfl
  have written : ((loaded (p ++ q) (.empty none)).quietRun out out).1.out =
      ((loaded p (.empty none)).quietRun out out).1.out :=
    congrArg Observation.out (same p q (.empty none) out out (.inl failed))
  rw [quietRun_eq_close, quietRun_eq_close, alone, whole] at written
  cases written

end Machine

end TypedStack
