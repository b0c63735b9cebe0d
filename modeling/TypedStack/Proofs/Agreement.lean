import TypedStack.Proofs.Execution

/-!
# Agreement of sources

Two sources agree if they answer alike up to the first `exit`. Machines with sources that agree
cannot be told apart from outside, however often they are run: `InStep.runs` lifts the agreement
from single pulls over steps, drives and runs.
-/

namespace TypedStack

/-- A relation between sources that answer alike; behind an `exit` they need not be related any
more. -/
structure Source.IsAgreement (R : Source → Source → Prop) : Prop where
  line {s t : Source} : R s t → s.line = t.line
  result {s t : Source} : R s t → s.next.result = t.next.result
  line_next {s t : Source} : R s t → s.next.source.line = t.next.source.line
  next {s t : Source} :
    R s t → (∀ i, s.next.result = .ok i → i.opcode ≠ .exit) → R s.next.source t.next.source

/-- What can be seen of a run from outside: how it ended, the devices, the stack, and whether the
machine has halted. -/
structure Observation (σ τ : Type) where
  failure : Option Failure
  succeeded : Bool
  out : σ
  err : τ
  stack : Stack
  halted : Bool

/-- What can be seen of a run. -/
def observe {σ τ : Type} (result : Run σ × τ) : Observation σ τ :=
  ⟨result.1.failure, result.1.succeeded, result.1.out, result.2, result.1.machine.stack,
    result.1.machine.halted⟩

/-- Machines that differ in their sources only, and whose sources agree as long as they run. -/
structure InStep (R : Source → Source → Prop) (m m' : Machine) : Prop where
  stack : m.stack = m'.stack
  halted : m.halted = m'.halted
  line : m.line = m'.line
  source : m.halted = false → R m.source m'.source

namespace InStep

variable {σ τ : Type} [Sink σ] [Sink τ] {R : Source → Source → Prop} {m m' : Machine}

/-- One step keeps machines in step, and does the same outside them. -/
lemma step (agreement : Source.IsAgreement R) (h : InStep R m m') (running : m.halted = false)
    (out : σ) :
    InStep R (m.step out).machine (m'.step out).machine ∧
      (m.step out).out = (m'.step out).out ∧ (m.step out).error = (m'.step out).error := by
  obtain ⟨source, stack, halted⟩ := m
  obtain ⟨source', stack', halted'⟩ := m'
  obtain ⟨rfl, rfl, -, related⟩ := h
  have related := related running
  have result := agreement.result related
  have line := agreement.line_next related
  cases hr : source.next.result with
  | error e =>
    rw [Machine.step_of_pull_error hr, Machine.step_of_pull_error (result.symm.trans hr)]
    have next := agreement.next related (by rw [hr]; nofun)
    exact ⟨⟨rfl, rfl, line, fun _ => next⟩, rfl, rfl⟩
  | ok i =>
    rw [Machine.step_of_pull_ok hr, Machine.step_of_pull_ok (result.symm.trans hr)]
    refine ⟨⟨rfl, rfl, line, fun goesOn => ?_⟩, rfl, rfl⟩
    refine agreement.next related fun i' hi' => ?_
    cases hr.symm.trans hi'
    -- an instruction that does not halt the machine is no `exit`
    exact ne_of_beq_false (Bool.or_eq_false_iff.mp goesOn).2

/-- A drive keeps machines in step, and ends in the same way outside them. -/
lemma drive (agreement : Source.IsAgreement R) (h : InStep R m m') (out : σ) :
    InStep R (m.drive out).machine (m'.drive out).machine ∧
      (m.drive out).out = (m'.drive out).out ∧ (m.drive out).failure = (m'.drive out).failure := by
  fun_induction Machine.drive m out generalizing m' with
  | case1 m out halted =>
    rw [Machine.drive_of_halted (h.halted.symm.trans halted)]
    exact ⟨h, rfl, rfl⟩
  | case2 m out running step e =>
    rename_i he
    have running := Bool.eq_false_iff.mpr running
    obtain ⟨same, hout, herror⟩ := h.step agreement running out
    rw [Machine.drive_of_error (h.halted.symm.trans running) (herror.symm.trans he)]
    exact ⟨same, hout, by rw [← same.line]⟩
  | case3 m out running step ok =>
    rename_i rest ih
    have running := Bool.eq_false_iff.mpr running
    obtain ⟨same, hout, herror⟩ := h.step agreement running out
    rw [Machine.drive_of_ok (h.halted.symm.trans running) (herror.symm.trans ok)]
    rw [← hout]
    exact ih same

/-- A run of machines in step is the same seen from outside, and leaves them in step. -/
lemma run (agreement : Source.IsAgreement R) (h : InStep R m m') (out : σ) (err : τ) :
    InStep R (m.run out err).1.machine (m'.run out err).1.machine ∧
      observe (m.run out err) = observe (m'.run out err) := by
  obtain ⟨same, hout, hfailure⟩ := h.drive agreement out
  have hfailure : (m.execute out).failure = (m'.execute out).failure := by
    simp only [Machine.execute_failure, hout, hfailure, same.line]
  rw [Machine.run_eq, Machine.run_eq]
  refine ⟨same, ?_⟩
  simp only [observe, Run.succeeded, Run.out_withRefusal, Run.machine_withRefusal,
    Run.failure_withRefusal, Machine.execute_out, Machine.execute_machine, hfailure, hout,
    same.stack, same.halted]

/-- Machines in step stay alike from outside over any number of runs. -/
lemma runs (agreement : Source.IsAgreement R) (h : InStep R m m') (count : Nat) (out : σ)
    (err : τ) :
    (m.runs count out err).map observe = (m'.runs count out err).map observe := by
  induction count generalizing m m' out err with
  | zero => rfl
  | succ count ih =>
    obtain ⟨same, seen⟩ := h.run agreement out err
    have hout : (m.run out err).1.out = (m'.run out err).1.out := congrArg Observation.out seen
    have herr : (m.run out err).2 = (m'.run out err).2 := congrArg Observation.err seen
    simp only [Machine.runs, List.map_cons]
    rw [seen, ih same, hout, herr]

end InStep

end TypedStack
