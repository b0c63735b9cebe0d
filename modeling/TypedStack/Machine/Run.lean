import TypedStack.Machine.Step

/-!
# Runs

A run takes steps until the machine halts or a step fails, and then flushes the output. A machine
whose run failed can be run again and goes on behind the failing instruction; running a halted
machine only flushes.
-/

namespace TypedStack

/-- What a run did: the machine and output afterwards, the failure that ended it, and what was
recorded. -/
structure Run (σ : Type) where
  machine : Machine
  out : σ
  failure : Option Failure
  events : List Event

namespace Run

/-- A run succeeds if nothing failed. -/
def succeeded {σ : Type} (run : Run σ) : Bool := run.failure.isNone

/-- The exit code of a process that made this run. -/
def exitCode {σ : Type} (run : Run σ) : Nat := if run.succeeded then 0 else 1

end Run

namespace Failure

/-- The report of a failure, as it is written. -/
def report (failure : Failure) : String := failure.message ++ "\n"

/-- Writes the report of a failure. If it is refused, that is recorded and nothing more is done. -/
def reportTo {τ : Type} [Sink τ] (failure : Failure) (err : τ) : List Event × τ :=
  match Sink.write err (Text.encode failure.report) with
  | (none, err) => ([], err)
  | (some reason, err) => ([.notReported reason], err)

end Failure

namespace Machine

variable {σ τ : Type} [Sink σ] [Sink τ]

/-- Takes steps until the machine halts or a step fails. -/
def drive (m : Machine) (out : σ) : Run σ :=
  if m.halted then ⟨m, out, none, []⟩
  else
    let step := m.step out
    match _h : step.error with
    | some e => ⟨step.machine, step.out, some ⟨step.machine.line, e⟩, step.events⟩
    | none =>
      let rest := drive step.machine step.out
      { rest with events := step.events ++ rest.events }
termination_by m.remaining
decreasing_by exact remaining_step_lt ‹_› ‹_›

/-- Drives the machine and flushes the output in any case. A failure to flush counts only if nothing
failed before. -/
def execute (m : Machine) (out : σ) : Run σ :=
  let run := m.drive out
  let (refusal, out) := Sink.flush run.out
  let failure := run.failure <|> refusal.map fun reason => ⟨run.machine.line, .device reason⟩
  let last := match failure with
    | some failure => .runFailed failure
    | none => .runFinished run.machine.stack.size
  ⟨run.machine, out, failure, .runStarted m.stack.limit :: run.events ++ [last]⟩

/-- Executes the program and reports a failure to `err`, as much of it as `err` takes. -/
def run (m : Machine) (out : σ) (err : τ) : Run σ × τ :=
  let run := m.execute out
  match run.failure with
  | none => (run, err)
  | some failure =>
    let (events, err) := failure.reportTo err
    ({ run with events := run.events ++ events }, err)

/-- At most `count` steps, going on behind those that fail, each with an output of its own. -/
def traceSteps : Nat → Machine → List (Step Buffer)
  | 0, _ => []
  | count + 1, m =>
    if m.halted then []
    else
      let step := m.step Buffer.unlimited
      step :: traceSteps count step.machine

/-- All steps up to the one that halts the machine, going on behind those that fail. -/
def trace (m : Machine) : List (Step Buffer) := traceSteps (m.source.remaining + 1) m

end Machine

end TypedStack
