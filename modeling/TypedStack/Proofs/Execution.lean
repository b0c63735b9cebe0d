import Mathlib.Tactic.Lemma
import TypedStack.Machine.Run

/-!
# Execution

Equations for steps and runs that later proofs use in place of the definitions, the runs that a
machine makes when it is run again and again, and the machines that are reached on the way.
`Reachable` takes single steps and goes on behind those that fail; `Reachable.runs` shows that runs
visit nothing else.
-/

namespace TypedStack

variable {σ τ : Type}

namespace Run

/-- The same run without its records. -/
def quiet (run : Run σ) : Run σ := { run with events := [] }

/-- The same run with a record of whether `err` refuses the report of its failure. -/
def withRefusal [Sink τ] (run : Run σ) (err : τ) : Run σ :=
  { run with events := run.events ++
      match run.failure with
      | none => []
      | some failure => (failure.reportTo err).1 }

section
variable [Sink τ] (run : Run σ) (err : τ)

/-- Whether the report is refused makes no difference to the machine. -/
@[simp] lemma machine_withRefusal : (run.withRefusal err).machine = run.machine := rfl

/-- Whether the report is refused makes no difference to the output. -/
@[simp] lemma out_withRefusal : (run.withRefusal err).out = run.out := rfl

/-- Whether the report is refused makes no difference to the failure. -/
@[simp] lemma failure_withRefusal : (run.withRefusal err).failure = run.failure := rfl

end

end Run

namespace Machine

section
variable [Sink σ] {m : Machine} {out : σ}

/-- A step that gets no instruction changes the source only. -/
lemma step_of_pull_error {e : Error} (he : m.source.next.result = .error e) :
    m.step out =
      ⟨none, { m with source := m.source.next.source }, out, some e, m.source.next.events⟩ := by
  simp only [step, he]

/-- A step that gets an instruction performs it. -/
lemma step_of_pull_ok {i : Instruction} (hi : m.source.next.result = .ok i) :
    m.step out =
      let effect := Effect.ofInstruction i m.stack out
      ⟨some i, ⟨m.source.next.source, effect.stack, m.halted || i.opcode == .exit⟩, effect.out,
        effect.error, m.source.next.events ++ .dispatch m.source.next.source.line i.opcode
        m.stack.size :: effect.events⟩ := by
  simp only [step, hi]

/-- Whether or not it fails, a step pulls once. -/
lemma source_step : (m.step out).machine.source = m.source.next.source := by
  cases h : m.source.next.result with
  | error e => rw [step_of_pull_error h]
  | ok i => rw [step_of_pull_ok h]

/-- A step that tells which instruction it pulled did to the stack what that instruction does. -/
lemma step_of_fetched {i : Instruction} (fetched : (m.step out).fetched = some i) :
    m.source.next.result = .ok i ∧ (m.step out).error = (Effect.ofInstruction i m.stack out).error ∧
      (m.step out).machine.stack = (Effect.ofInstruction i m.stack out).stack := by
  cases h : m.source.next.result with
  | error e =>
    rw [step_of_pull_error h] at fetched
    cases fetched
  | ok i' =>
    rw [step_of_pull_ok h] at fetched ⊢
    cases fetched
    exact ⟨rfl, rfl, rfl⟩

/-- Only `exit` halts a machine, and it never fails. -/
lemma halted_step_of_error {e : Error} (failed : (m.step out).error = some e) :
    (m.step out).machine.halted = m.halted := by
  cases h : m.source.next.result with
  | error e => rw [step_of_pull_error h]
  | ok i =>
    rw [step_of_pull_ok h] at failed ⊢
    have running : i.opcode ≠ .exit := by
      intro hop
      simp only [Effect.ofInstruction, hop] at failed
      cases failed
    simp [running]

/-- A halted machine is not driven further. -/
lemma drive_of_halted (halted : m.halted = true) : m.drive out = ⟨m, out, none, []⟩ := by
  rw [drive, if_pos halted]

/-- A step that fails ends the drive. -/
lemma drive_of_error {e : Error} (running : m.halted = false) (he : (m.step out).error = some e) :
    m.drive out =
      ⟨(m.step out).machine, (m.step out).out, some ⟨(m.step out).machine.line, e⟩,
        (m.step out).events⟩ := by
  rw [drive, if_neg (Bool.eq_false_iff.mp running)]
  dsimp only
  split
  · next e' h =>
    cases he.symm.trans h
    rfl
  · next h => cases he.symm.trans h

/-- A step that succeeds is followed by a drive of what it leaves. -/
lemma drive_of_ok (running : m.halted = false) (ok : (m.step out).error = none) :
    m.drive out =
      let rest := (m.step out).machine.drive (m.step out).out
      { rest with events := (m.step out).events ++ rest.events } := by
  rw [drive, if_neg (Bool.eq_false_iff.mp running)]
  dsimp only
  split
  · next e h => cases ok.symm.trans h
  · rfl

/-- Up to the records, a drive may start behind a step that succeeds. -/
lemma quiet_drive_of_ok (running : m.halted = false) (ok : (m.step out).error = none) :
    (m.drive out).quiet = ((m.step out).machine.drive (m.step out).out).quiet := by
  rw [drive_of_ok running ok]
  rfl

/-- What holds of a machine and its output, and is kept by every step, holds at the end of a
drive. -/
lemma drive_induction {P : Machine → σ → Prop}
    (step : ∀ m out, m.halted = false → P m out → P (m.step out).machine (m.step out).out)
    (start : P m out) :
    P (m.drive out).machine (m.drive out).out := by
  fun_induction drive m out with
  | case1 m out halted => exact start
  | case2 m out running _ e he => exact step m out (Bool.eq_false_iff.mpr running) start
  | case3 m out running _ ok rest ih => exact ih (step m out (Bool.eq_false_iff.mpr running) start)

/-- The outcome of an execution is that of the drive, unless that went well and the output is not
flushed. -/
lemma execute_failure :
    (m.execute out).failure =
      ((m.drive out).failure <|>
        (Sink.flush (m.drive out).out).1.map fun reason =>
        ⟨(m.drive out).machine.line, .device reason⟩) := rfl

/-- The final flush does not change the machine. -/
@[simp] lemma execute_machine : (m.execute out).machine = (m.drive out).machine := rfl

/-- An execution ends with a flush of the output. -/
@[simp] lemma execute_out : (m.execute out).out = (Sink.flush (m.drive out).out).2 := rfl

/-! ### Programs in memory -/

variable {i : Instruction} {rest : List Instruction} {line : Nat} {s : Stack}

/-- A step of a program in memory performs its next instruction. -/
lemma step_program :
    (⟨.program ⟨i :: rest, line⟩, s, false⟩ : Machine).step out =
      let effect := Effect.ofInstruction i s out
      ⟨some i, ⟨.program ⟨rest, line + 1⟩, effect.stack, i.opcode == .exit⟩, effect.out,
        effect.error, .dispatch (line + 1) i.opcode s.size :: effect.events⟩ := rfl

/-- An instruction that succeeds is followed by the rest of the program. -/
lemma quiet_drive_program_of_ok {effect : Effect σ} (hop : i.opcode ≠ .exit)
    (performed : Effect.ofInstruction i s out = effect) (ok : effect.error = none) :
    (drive ⟨.program ⟨i :: rest, line⟩, s, false⟩ out).quiet =
      (drive ⟨.program ⟨rest, line + 1⟩, effect.stack, false⟩ effect.out).quiet := by
  subst performed
  have ok' : (step ⟨.program ⟨i :: rest, line⟩, s, false⟩ out).error = none := ok
  rw [quiet_drive_of_ok rfl ok', step_program, beq_false_of_ne hop]

/-- An instruction that fails ends the drive of a program. -/
lemma quiet_drive_program_of_error {effect : Effect σ} {e : Error}
    (performed : Effect.ofInstruction i s out = effect) (failed : effect.error = some e) :
    (drive ⟨.program ⟨i :: rest, line⟩, s, false⟩ out).quiet =
      ⟨⟨.program ⟨rest, line + 1⟩, effect.stack, i.opcode == .exit⟩, effect.out, some ⟨line + 1, e⟩,
        []⟩ := by
  subst performed
  have failed' : (step ⟨.program ⟨i :: rest, line⟩, s, false⟩ out).error = some e := failed
  rw [drive_of_error rfl failed', step_program]
  rfl

/-- At an `exit` a program ends well, whatever follows. -/
lemma quiet_drive_program_of_exit (hop : i.opcode = .exit) :
    (drive ⟨.program ⟨i :: rest, line⟩, s, false⟩ out).quiet =
      ⟨⟨.program ⟨rest, line + 1⟩, s, true⟩, out, none, []⟩ := by
  have effect : Effect.ofInstruction i s out = .done s out := by
    simp only [Effect.ofInstruction, hop]
  have ok : (step ⟨.program ⟨i :: rest, line⟩, s, false⟩ out).error = none :=
    congrArg Effect.error effect
  rw [quiet_drive_of_ok rfl ok, step_program, effect, beq_iff_eq.mpr hop, drive_of_halted rfl]
  rfl

/-- A program ends well behind its last instruction. -/
lemma quiet_drive_program_nil :
    (drive ⟨.program ⟨[], line⟩, s, false⟩ out).quiet =
      ⟨⟨.program ⟨[], line⟩, s, true⟩, out, none, []⟩ := by
  have ok : (step ⟨.program ⟨[], line⟩, s, false⟩ out).error = none := rfl
  rw [quiet_drive_of_ok rfl ok, drive_of_halted rfl]
  rfl

end

variable [Sink σ] [Sink τ]

/-- Successive runs, each of what the one before has left. -/
def runs : Nat → Machine → σ → τ → List (Run σ × τ)
  | 0, _, _, _ => []
  | count + 1, m, out, err =>
    let result := m.run out err
    result :: runs count result.1.machine result.1.out result.2

/-- A run is an execution; what becomes of `err`, and what is recorded about that, depends on the
failure only. -/
lemma run_eq (m : Machine) (out : σ) (err : τ) :
    m.run out err =
      ((m.execute out).withRefusal err,
        match (m.execute out).failure with
        | none => err
        | some failure => (Sink.write err (Text.encode failure.report)).2) := by
  unfold run Run.withRefusal
  generalize m.execute out = executed
  obtain ⟨machine, out, failure, events⟩ := executed
  cases failure with
  | none => simp only [List.append_nil]
  | some failure =>
    simp only [Failure.reportTo]
    split
    · next written => rw [written]
    · next written => rw [written]

/-- After a drive that went well, a run has only the flush to fail at. -/
lemma run_of_quiet_drive {m m' : Machine} {out out' : σ}
    (driven : (m.drive out).quiet = ⟨m', out', none, []⟩) (err : τ) :
    let run := (m.run out err).1
    run.machine = m' ∧ run.out = (Sink.flush out').2 ∧
      ((Sink.flush out').1 = none → run.succeeded = true) := by
  have machine : (m.drive out).machine = m' := congrArg Run.machine driven
  have written : (m.drive out).out = out' := congrArg Run.out driven
  have failure : (m.drive out).failure = none := congrArg Run.failure driven
  rw [run_eq]
  refine ⟨machine, congrArg (Sink.flush · |>.2) written, fun flushed => ?_⟩
  show (m.execute out).succeeded = true
  rw [Run.succeeded, execute_failure, failure, written, flushed]
  rfl

/-- The machines that `m₀` becomes by steps, whether or not these fail, and whatever becomes of
their output. -/
inductive Reachable (m₀ : Machine) : Machine → Prop where
  | refl : Reachable m₀ m₀
  | step {m : Machine} {σ : Type} [Sink σ] (out : σ) :
    Reachable m₀ m → m.halted = false → Reachable m₀ (m.step out).machine

namespace Reachable

/-- Every drive of a reachable machine ends in a reachable one. -/
lemma drive {m₀ m : Machine} (reached : Reachable m₀ m) (out : σ) :
    Reachable m₀ (m.drive out).machine :=
  drive_induction (P := fun m _ => Reachable m₀ m)
    (fun _ out running reached => reached.step out running) reached

/-- Every run of a reachable machine ends in a reachable one. -/
lemma runs {m₀ m : Machine} (reached : Reachable m₀ m) (count : Nat) (out : σ) (err : τ) :
    ∀ result ∈ m.runs count out err, Reachable m₀ result.1.machine := by
  induction count generalizing m out err with
  | zero =>
    intro result hr
    cases hr
  | succ count ih =>
    have next : Reachable m₀ (m.run out err).1.machine := by
      rw [run_eq]
      exact reached.drive out
    intro result hr
    cases hr with
    | head => exact next
    | tail _ hr => exact ih next _ _ result hr

end Reachable

end Machine

end TypedStack
