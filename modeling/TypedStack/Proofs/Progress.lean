import TypedStack.Proofs.Execution

/-!
# The course of a run

What a run has made of a machine and its output after each of its steps. `advance` says where a run
stands after a number of steps, as long as none of them failed, and a drive goes on from there as it
would have from the start. A run is a drive that is closed: `Run.close` flushes the output and
reports the failure.
-/

namespace TypedStack

/-- The failure of a step, with the line it happened at. -/
def Step.failure? {σ : Type} (step : Step σ) : Option Failure :=
  step.error.map fun e => ⟨step.machine.line, e⟩

/-- A step that succeeds has no failure. -/
lemma Step.failure?_of_ok {σ : Type} {step : Step σ} (ok : step.error = none) :
    step.failure? = none := by
  rw [failure?, ok]
  rfl

/-- A step that fails has a failure at the line it has come to. -/
lemma Step.failure?_of_error {σ : Type} {step : Step σ} {e : Error} (failed : step.error = some e) :
    step.failure? = some ⟨step.machine.line, e⟩ := by
  rw [failure?, failed]
  rfl

/-- What a run has to report: its failure in a line, or nothing. -/
def Run.report {σ : Type} (run : Run σ) : List (List UInt8) :=
  run.failure.toList.map fun failure => Text.encode failure.report

/-- Offering a single chunk is one write. -/
lemma Sink.writeAll_singleton {σ : Type} [Sink σ] (out : σ) (chunk : List UInt8) :
    writeAll out [chunk] = write out chunk := by
  rw [writeAll]
  split
  · next h => exact h.symm
  · next h => exact h.symm

/-- What becomes of a drive when its output is flushed and its failure, if any, reported. -/
def Run.close {σ τ : Type} [Sink σ] [Sink τ] (err : τ) (run : Run σ) : Run σ × τ :=
  let failure := run.failure <|> (Sink.flush run.out).1.map fun reason =>
    ⟨run.machine.line, .device reason⟩
  (⟨run.machine, (Sink.flush run.out).2, failure, []⟩,
    match failure with
    | none => err
    | some failure => (Sink.write err (Text.encode failure.report)).2)

namespace Machine

variable {σ τ : Type} [Sink σ] [Sink τ] {m m' : Machine} {out out' : σ} {count : Nat}

/-- A run without its records. -/
def quietRun (m : Machine) (out : σ) (err : τ) : Run σ × τ :=
  ((m.run out err).1.quiet, (m.run out err).2)

/-- A run is a drive that is closed. -/
lemma quietRun_eq_close (m : Machine) (out : σ) (err : τ) :
    m.quietRun out err = (m.drive out).quiet.close err := by
  rw [quietRun, run_eq]
  rfl

/-- Records make no difference to whether a run succeeds. -/
lemma succeeded_run (m : Machine) (out : σ) (err : τ) :
    (m.run out err).1.succeeded = (m.quietRun out err).1.succeeded := rfl

/-- Whether or not there is a failure, a run writes its report. -/
lemma run_err (m : Machine) (out : σ) (err : τ) :
    (m.run out err).2 = (Sink.writeAll err (m.run out err).1.report).2 := by
  rw [run_eq]
  dsimp only
  rw [Run.report, Run.failure_withRefusal]
  cases (m.execute out).failure with
  | none => rfl
  | some failure => exact congrArg Prod.snd (Sink.writeAll_singleton err _).symm

/-- If the drive fails, the run fails in the same way. -/
lemma failure_run_of_drive {failure : Failure} (h : (m.drive out).failure = some failure)
    (err : τ) :
    (m.run out err).1.failure = some failure := by
  rw [run_eq, Run.failure_withRefusal, execute_failure, h]
  rfl

/-- A run fails as its drive does, or because the output is not flushed. -/
lemma failure_drive_of_run {failure : Failure} {err : τ}
    (h : (m.run out err).1.failure = some failure) :
    (m.drive out).failure = some failure ∨ ∃ reason, failure.error = .device reason := by
  rw [run_eq, Run.failure_withRefusal, execute_failure] at h
  cases hd : (m.drive out).failure with
  | some failure' =>
    rw [hd] at h
    exact .inl h
  | none =>
    rw [hd] at h
    obtain ⟨reason, -, rfl⟩ := Option.map_eq_some_iff.mp h
    exact .inr ⟨reason, rfl⟩

/-- A drive that goes well halts the machine. -/
lemma halted_drive_of_ok (ok : (m.drive out).failure = none) :
    (m.drive out).machine.halted = true := by
  fun_induction Machine.drive m out with
  | case1 m out halted => exact halted
  | case2 => cases ok
  | case3 m out running step _ rest ih => exact ih ok

/-- Only a machine that halts makes its run a success. -/
lemma halted_run_of_succeeded {err : τ} (succeeded : (m.run out err).1.succeeded = true) :
    (m.run out err).1.machine.halted = true := by
  cases h : (m.drive out).failure with
  | some failure =>
    rw [Run.succeeded, failure_run_of_drive h] at succeeded
    cases succeeded
  | none =>
    rw [run_eq]
    exact halted_drive_of_ok h

/-- The machine and output after `count` steps, if a run takes so many before it halts or fails. -/
def advance : Nat → Machine → σ → Option (Machine × σ)
  | 0, m, out => some (m, out)
  | count + 1, m, out =>
    if m.halted || (m.step out).error.isSome then none
      else advance count (m.step out).machine (m.step out).out

/-- Behind a step that succeeds a run goes on from what the step leaves. -/
lemma advance_of_ok (running : m.halted = false) (ok : (m.step out).error = none) :
    advance (count + 1) m out = advance count (m.step out).machine (m.step out).out := by
  simp [advance, running, ok]

/-- If a run takes more than one step, the first one succeeds and the others follow it. -/
lemma advance_succ_eq_some {r : Machine × σ} (h : advance (count + 1) m out = some r) :
    m.halted = false ∧ (m.step out).error = none ∧
      advance count (m.step out).machine (m.step out).out = some r := by
  unfold advance at h
  split at h
  · cases h
  · next goesOn =>
    obtain ⟨running, ok⟩ := Bool.or_eq_false_iff.mp (Bool.eq_false_iff.mpr goesOn)
    exact ⟨running, Option.not_isSome_iff_eq_none.mp (Bool.eq_false_iff.mp ok), h⟩

/-- Where a run stands, one more step goes on from. -/
lemma advance_step (h : advance count m out = some (m', out')) (running : m'.halted = false)
    (ok : (m'.step out').error = none) :
    advance (count + 1) m out = some ((m'.step out').machine, (m'.step out').out) := by
  induction count generalizing m out with
  | zero =>
    cases h
    rw [advance_of_ok running ok, advance]
  | succ count ih =>
    obtain ⟨running', ok', h⟩ := advance_succ_eq_some h
    rw [advance_of_ok running' ok', ih h]

/-- The last of some steps succeeds where the others lead. -/
lemma exists_of_advance_succ (h : advance (count + 1) m out = some (m', out')) :
    ∃ m₁ out₁, advance count m out = some (m₁, out₁) ∧ m₁.halted = false ∧
      (m₁.step out₁).error = none ∧
      m' = (m₁.step out₁).machine ∧ out' = (m₁.step out₁).out := by
  induction count generalizing m out with
  | zero =>
    obtain ⟨running, ok, h⟩ := advance_succ_eq_some h
    cases h
    exact ⟨m, out, rfl, running, ok, rfl, rfl⟩
  | succ count ih =>
    obtain ⟨running, ok, h⟩ := advance_succ_eq_some h
    rw [advance_of_ok running ok]
    exact ih h

/-- A drive goes on from where it stands as it would from the start. -/
lemma quiet_drive_of_advance (h : advance count m out = some (m', out')) :
    (m.drive out).quiet = (m'.drive out').quiet := by
  induction count generalizing m out with
  | zero =>
    cases h
    rfl
  | succ count ih =>
    obtain ⟨running, ok, h⟩ := advance_succ_eq_some h
    rw [quiet_drive_of_ok running ok, ih h]

/-- What holds at the start and is kept by the steps that succeed holds wherever a run stands. -/
lemma advance_induction {P : Machine → σ → Prop} (start : P m out)
    (step : ∀ m out, m.halted = false → (m.step out).error = none → P m out →
      P (m.step out).machine (m.step out).out)
    (h : advance count m out = some (m', out')) : P m' out' := by
  induction count generalizing m out with
  | zero =>
    cases h
    exact start
  | succ count ih =>
    obtain ⟨running, ok, h⟩ := advance_succ_eq_some h
    exact ih (step m out running ok start) h

/-- A halted machine takes no steps. -/
lemma advance_of_halted (halted : m.halted = true) (h : advance count m out = some (m', out')) :
    m'.halted = true := by
  cases count with
  | zero =>
    cases h
    exact halted
  | succ count =>
    obtain ⟨running, -, -⟩ := advance_succ_eq_some h
    cases halted.symm.trans running

/-- A drive fails by the step that it takes next from where it stands. -/
lemma failure_drive_of_advance {e : Error} (h : advance count m out = some (m', out'))
    (running : m'.halted = false) (failed : (m'.step out').error = some e) :
    (m.drive out).failure = some ⟨(m'.step out').machine.line, e⟩ := by
  have drive := congrArg Run.failure (quiet_drive_of_advance h)
  rw [drive_of_error running failed] at drive
  exact drive

/-- If a drive fails, it stands at the step that fails. -/
lemma exists_advance_of_failure {failure : Failure} (h : (m.drive out).failure = some failure) :
    ∃ count m' out', advance count m out = some (m', out') ∧ m'.halted = false ∧
      (m'.step out').failure? = some failure := by
  fun_induction Machine.drive m out with
  | case1 m out halted => cases h
  | case2 m out running step e he =>
    refine ⟨0, m, out, rfl, Bool.eq_false_iff.mpr running, ?_⟩
    rw [Step.failure?_of_error he]
    exact h
  | case3 m out running step ok rest ih =>
    obtain ⟨count, m', out', h, stands⟩ := ih h
    refine ⟨count + 1, m', out', ?_, stands⟩
    rw [advance_of_ok (Bool.eq_false_iff.mpr running) ok]
    exact h

/-! ### Programs in memory -/

section
variable {is : List Instruction} {line : Nat} {s : Stack}

/-- After `count` steps, none of them an `exit`, a program stands behind its first `count`
instructions. -/
lemma program_of_advance (h : advance count ⟨.program ⟨is, line⟩, s, false⟩ out = some (m', out'))
    (running : m'.halted = false) :
    count ≤ is.length ∧ m'.source = .program ⟨is.drop count, line + count⟩ ∧
      .exit ∉ (is.take count).map (·.opcode) := by
  induction count generalizing is line s out with
  | zero =>
    cases h
    exact ⟨Nat.zero_le _, rfl, List.not_mem_nil⟩
  | succ count ih =>
    obtain ⟨-, -, h⟩ := advance_succ_eq_some h
    cases is with
    | nil => cases (advance_of_halted rfl h).symm.trans running
    | cons i is =>
      rw [step_program] at h
      by_cases hop : i.opcode = .exit
      · have halted : (i.opcode == .exit) = true := beq_iff_eq.mpr hop
        cases (advance_of_halted halted h).symm.trans running
      · rw [beq_false_of_ne hop] at h
        obtain ⟨le, source, noExit⟩ := ih h
        refine ⟨Nat.succ_le_succ le, ?_, ?_⟩
        · rw [source, Nat.add_right_comm]
          rfl
        · rw [List.take_succ_cons, List.map_cons, List.mem_cons, not_or]
          exact ⟨fun h => hop h.symm, noExit⟩

/-- A step of a program that has an instruction left performs it. -/
lemma step_of_getElem? {i : Instruction} (source : m.source = .program ⟨is.drop count, line⟩)
    (running : m.halted = false) (hi : is[count]? = some i) (out : σ) :
    m.step out =
      let effect := Effect.ofInstruction i m.stack out
      ⟨some i, ⟨.program ⟨is.drop (count + 1), line + 1⟩, effect.stack, i.opcode == .exit⟩,
        effect.out, effect.error, .dispatch (line + 1) i.opcode m.stack.size :: effect.events⟩ := by
  obtain ⟨lt, rfl⟩ := List.getElem?_eq_some_iff.mp hi
  obtain ⟨_, stack, _⟩ := m
  cases source
  cases running
  rw [List.drop_eq_getElem_cons lt]
  exact step_program

/-- A program gets behind any number of its instructions, if none of these is an `exit`, or it fails
at one of them. -/
lemma advance_or_failure (m : Machine) (source : m.source = .program (.ofList is))
    (running : m.halted = false) (out : σ) (le : count ≤ is.length)
    (noExit : .exit ∉ (is.take count).map (·.opcode)) :
    (∃ m' out', advance count m out = some (m', out') ∧ m'.halted = false) ∨
      ∃ failure, (m.drive out).failure = some failure ∧ failure.line ≤ count := by
  obtain ⟨_, s, _⟩ := m
  cases source
  cases running
  induction count with
  | zero => exact .inl ⟨_, _, rfl, rfl⟩
  | succ count ih =>
    rw [List.take_succ_eq_append_getElem le, List.map_append, List.mem_append, not_or] at noExit
    have hop : is[count].opcode ≠ .exit := by
      intro h
      exact noExit.2 (List.mem_singleton.mpr h.symm)
    rcases ih (Nat.le_of_succ_le le) noExit.1 with ⟨m', out', h, running⟩ | ⟨failure, failed, le⟩
    · -- the program stands before instruction `count`, which is no `exit`
      obtain ⟨-, source, -⟩ := program_of_advance h running
      have step := step_of_getElem? source running (List.getElem?_eq_getElem le) out'
      cases he : (m'.step out').error with
      | some e =>
        refine .inr ⟨_, failure_drive_of_advance h running he, ?_⟩
        rw [step, Nat.zero_add]
        exact Nat.le_refl _
      | none =>
        refine .inl ⟨_, _, advance_step h running he, ?_⟩
        rw [step]
        exact beq_false_of_ne hop
    · exact .inr ⟨failure, failed, Nat.le_succ_of_le le⟩

end

namespace Reachable

variable {m₀ : Machine} {failure : Failure}

/-- A drive fails only by a step that fails. -/
lemma exists_step_of_drive (reached : Reachable m₀ m) (h : (m.drive out).failure = some failure) :
    ∃ (m' : Machine) (out' : σ), Reachable m₀ m' ∧ m'.halted = false ∧
      (m'.step out').failure? = some failure := by
  obtain ⟨count, m', out', h, running, failed⟩ := exists_advance_of_failure h
  have reached' : Reachable m₀ m' :=
    advance_induction (P := fun m _ => Reachable m₀ m) reached
      (fun _ out running _ reached => reached.step out running) h
  exact ⟨m', out', reached', running, failed⟩

/-- A run fails only by a step that fails, or because the output is not flushed. -/
lemma exists_step_of_runs (reached : Reachable m₀ m) (count : Nat) (out : σ) (err : τ) :
    ∀ result ∈ m.runs count out err, result.1.failure = some failure →
      (∃ (m' : Machine) (out' : σ), Reachable m₀ m' ∧ m'.halted = false ∧
        (m'.step out').failure? = some failure) ∨
        ∃ reason, failure.error = .device reason := by
  induction count generalizing m out err with
  | zero =>
    intro result hr
    cases hr
  | succ count ih =>
    intro result hr h
    rw [Machine.runs] at hr
    cases hr with
    | head => exact (failure_drive_of_run h).imp_left reached.exists_step_of_drive
    | tail _ hr =>
      rw [run_eq] at hr
      exact ih (reached.drive out) _ _ result hr h

end Reachable

end Machine

end TypedStack
