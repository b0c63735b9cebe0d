import TypedStack.Proofs.Output
import TypedStack.Proofs.Trace

/-!
# Resumed runs

Running a machine again and again takes the same steps as stepping it through once, going on behind
failures: every run takes the steps up to the next failure, and the last one those behind the last
failure. `Step.segments` cuts a trace that way and `Machine.replay` says what each piece amounts to
as a run.
-/

namespace TypedStack

/-! ## Cutting a trace -/

/-- Cuts steps behind each one that fails. The last piece has those behind the last failure. -/
def Step.segments : List (Step Buffer) → List (List (Step Buffer))
  | [] => [[]]
  | step :: steps =>
    if step.error.isSome then [step] :: segments steps else (segments steps).modifyHead (step :: ·)

/-- How a piece of a trace ends. -/
def Step.lastFailure? (steps : List (Step Buffer)) : Option Failure :=
  steps.getLast?.bind Step.failure?

namespace Step

variable {step : Step Buffer} {steps : List (Step Buffer)} {e : Error}

/-- A step that succeeds in front makes no difference to how a piece ends. -/
lemma lastFailure?_cons_of_ok (ok : step.error = none) :
    lastFailure? (step :: steps) = lastFailure? steps := by
  rw [lastFailure?, lastFailure?, List.getLast?_cons]
  cases steps.getLast? with
  | none => exact failure?_of_ok ok
  | some last => rfl

/-- With nothing to cut, there is one more empty piece. -/
lemma segments_nil_append (more : Nat) :
    segments [] ++ List.replicate more [] = List.replicate (more + 1) [] := rfl

/-- A step that fails is cut off behind. -/
lemma segments_of_error (failed : step.error = some e) :
    segments (step :: steps) = [step] :: segments steps := by
  rw [segments, failed]
  rfl

/-- There is always a first piece. -/
lemma exists_segments (steps : List (Step Buffer)) :
    ∃ first rest, segments steps = first :: rest := by
  induction steps with
  | nil => exact ⟨[], [], rfl⟩
  | cons step steps ih =>
    obtain ⟨first, rest, h⟩ := ih
    rw [segments]
    split
    · exact ⟨[step], segments steps, rfl⟩
    · exact ⟨step :: first, rest, by rw [h]; rfl⟩

/-- A step that succeeds belongs to the first piece. -/
lemma segments_of_ok {first : List (Step Buffer)} {rest : List (List (Step Buffer))}
    (ok : step.error = none) (h : segments steps = first :: rest) :
    segments (step :: steps) = (step :: first) :: rest := by
  rw [segments, ok, h]
  rfl

/-- The pieces end with the failures, one each, and the last piece with none. -/
lemma map_lastFailure?_segments (steps : List (Step Buffer)) :
    (segments steps).map lastFailure? = (steps.filterMap failure?).map some ++ [none] := by
  induction steps with
  | nil => rfl
  | cons step steps ih =>
    cases h : step.error with
    | some e =>
      rw [segments_of_error h, List.map_cons, ih, List.filterMap_cons_some (failure?_of_error h)]
      have last : lastFailure? [step] = some ⟨step.machine.line, e⟩ := failure?_of_error h
      rw [last]
      rfl
    | none =>
      obtain ⟨first, rest, hfirst⟩ := exists_segments steps
      rw [segments_of_ok h hfirst, List.map_cons, lastFailure?_cons_of_ok h, ← List.map_cons,
        ← hfirst, ih, List.filterMap_cons_none (failure?_of_ok h)]

/-- There is one piece more than there are failures. -/
lemma length_segments (steps : List (Step Buffer)) :
    (segments steps).length = (steps.filterMap failure?).length + 1 := by
  have h := congrArg List.length (map_lastFailure?_segments steps)
  simpa using h

end Step

/-! ## Replaying the pieces -/

variable {σ τ : Type} [Sink σ] [Sink τ]

/-- The drive that takes some steps: it writes what they write and ends as they end. -/
def Run.ofSteps (m : Machine) (out : σ) (steps : List (Step Buffer)) : Run σ :=
  ⟨m.behind steps, (Sink.writeAll out (steps.flatMap Step.chunks)).2, Step.lastFailure? steps, []⟩

/-- A step that succeeds can be taken first. -/
lemma Run.ofSteps_cons {m : Machine} {out : σ} {step : Step Buffer} {steps : List (Step Buffer)}
    (willing : Sink.NeverRefuses out) (ok : step.error = none) :
    Run.ofSteps m out (step :: steps) =
      Run.ofSteps step.machine (Sink.writeAll out step.chunks).2 steps := by
  rw [ofSteps, ofSteps, Machine.behind_cons, Step.lastFailure?_cons_of_ok ok, List.flatMap_cons,
    Sink.writeAll_append (willing.writeAll step.chunks).1]

namespace Machine

variable {m m' : Machine} {out out' : σ} {steps : List (Step Buffer)}

/-- Successive runs that take the given pieces of a trace. -/
def replay : List (List (Step Buffer)) → Machine → σ → τ → List (Run σ × τ)
  | [], _, _, _ => []
  | steps :: pieces, m, out, err =>
    let result := (Run.ofSteps m out steps).close err
    result :: replay pieces result.1.machine result.1.out result.2

/-- Successive runs without their records. -/
def quietRuns (count : Nat) (m : Machine) (out : σ) (err : τ) : List (Run σ × τ) :=
  (m.runs count out err).map fun result => (result.1.quiet, result.2)

/-- A first run, and the others behind it. -/
lemma quietRuns_succ (count : Nat) (m : Machine) (out : σ) (err : τ) :
    quietRuns (count + 1) m out err =
      let result := m.quietRun out err
      result :: quietRuns count result.1.machine result.1.out result.2 := rfl

/-- Runs depend on no more than what the first drive does. -/
lemma quietRuns_congr (count : Nat) (h : (m.drive out).quiet = (m'.drive out').quiet) (err : τ) :
    quietRuns count m out err = quietRuns count m' out' err := by
  cases count with
  | zero => rfl
  | succ count => rw [quietRuns_succ, quietRuns_succ, quietRun_eq_close, quietRun_eq_close, h]

/-- A run of a halted machine takes no steps. -/
lemma quietRun_of_halted (halted : m.halted = true) (out : σ) (err : τ) :
    m.quietRun out err = (Run.ofSteps m out []).close err := by
  rw [quietRun_eq_close, drive_of_halted halted]
  rfl

/-- All runs of a halted machine take no steps. -/
lemma quietRuns_of_halted (halted : m.halted = true) (count : Nat) (out : σ) (err : τ) :
    quietRuns count m out err = replay (List.replicate count []) m out err := by
  induction count generalizing out err with
  | zero => rfl
  | succ count ih =>
    rw [quietRuns_succ, List.replicate_succ, replay, quietRun_of_halted halted]
    exact congrArg _ (ih _ _)

/-- A drive whose first step fails takes only that step. -/
lemma quiet_drive_of_step_error {e : Error} (running : m.halted = false)
    (willing : Sink.NeverRefuses out) (failed : (m.step Buffer.unlimited).error = some e) :
    (m.drive out).quiet = Run.ofSteps m out [m.step Buffer.unlimited] := by
  have same := step_of_neverRefuses willing m
  have last : Step.lastFailure? [m.step Buffer.unlimited] =
      some ⟨(m.step Buffer.unlimited).machine.line, e⟩ :=
    Step.failure?_of_error failed
  rw [drive_of_error running ((congrArg Step.error same).trans failed), same, Run.ofSteps,
    List.flatMap_singleton, last]
  rfl

/-- A drive whose first step succeeds goes on behind it. -/
lemma quiet_drive_of_step_ok (running : m.halted = false) (willing : Sink.NeverRefuses out)
    (ok : (m.step Buffer.unlimited).error = none) :
    let step := m.step Buffer.unlimited
    (m.drive out).quiet = (step.machine.drive (Sink.writeAll out step.chunks).2).quiet := by
  have same := step_of_neverRefuses willing m
  rw [quiet_drive_of_ok running ((congrArg Step.error same).trans ok), same]

/-- Runs replay the pieces of the trace, and after the last piece do nothing. -/
lemma Traces.quietRuns_eq_replay (traces : Traces m steps) (willing : Sink.NeverRefuses out)
    (err : τ) (more : Nat) :
    quietRuns ((Step.segments steps).length + more) m out err =
      replay (Step.segments steps ++ List.replicate more []) m out err := by
  induction traces generalizing out err with
  | halted halted =>
    rw [Step.segments_nil_append, Nat.add_comm]
    exact quietRuns_of_halted halted (more + 1) out err
  | @step m steps running _ ih =>
    cases h : (m.step Buffer.unlimited).error with
    | some e =>
      have drive := quiet_drive_of_step_error running willing h
      have next := (willing.writeAll ([m.step Buffer.unlimited].flatMap Step.chunks)).2.flush.2
      rw [Step.segments_of_error h, List.length_cons, Nat.add_right_comm, quietRuns_succ,
        quietRun_eq_close, drive, List.cons_append, replay]
      exact congrArg _ (ih next _)
    | none =>
      -- the step belongs to the run that goes on with the first piece
      obtain ⟨first, rest, hfirst⟩ := Step.exists_segments steps
      have drive := quiet_drive_of_step_ok running willing h
      have ih := ih (willing.writeAll (m.step Buffer.unlimited).chunks).2 err
      rw [hfirst] at ih
      rw [Step.segments_of_ok h hfirst, quietRuns_congr _ drive, List.cons_append, replay,
        Run.ofSteps_cons willing h]
      exact ih

/-- Where nothing is refused, a run fails as its drive does. -/
lemma failure_close {run : Run σ} (willing : Sink.NeverRefuses run.out) (err : τ) :
    (run.close err).1.failure = run.failure := by
  simp [Run.close, willing.flush.1]

/-- Replayed pieces fail as they end. -/
lemma failures_replay (pieces : List (List (Step Buffer))) (m : Machine)
    (willing : Sink.NeverRefuses out) (err : τ) :
    (replay pieces m out err).map (·.1.failure) = pieces.map Step.lastFailure? := by
  induction pieces generalizing m out err with
  | nil => rfl
  | cons steps pieces ih =>
    have next := (willing.writeAll (steps.flatMap Step.chunks)).2
    rw [replay, List.map_cons, failure_close next, List.map_cons]
    exact congrArg _ (ih _ next.flush.2 _)

/-- Behind its last failure, a trace is replayed to its end, and stays there. -/
lemma machine_replay (steps : List (Step Buffer)) (m : Machine) (willing : Sink.NeverRefuses out)
    (err : τ) (more : Nat) :
    ∀ result ∈ (replay (Step.segments steps ++ List.replicate more []) m out err).drop
      (steps.filterMap Step.failure?).length, result.1.machine = m.behind steps := by
  induction steps generalizing m out err with
  | nil =>
    -- behind the last piece of the trace there are only empty ones
    rw [Step.segments_nil_append]
    generalize more + 1 = count
    induction count generalizing out err with
    | zero =>
      intro result h
      cases h
    | succ count ih =>
      intro result h
      cases h with
      | head => rfl
      | tail _ h => exact ih willing.flush.2 _ result h
  | cons step steps ih =>
    rw [behind_cons]
    cases h : step.error with
    | some e =>
      have next := (willing.writeAll ([step].flatMap Step.chunks)).2.flush.2
      rw [Step.segments_of_error h, List.filterMap_cons_some (Step.failure?_of_error h),
        List.cons_append, replay]
      exact ih _ next _
    | none =>
      obtain ⟨first, rest, hfirst⟩ := Step.exists_segments steps
      have ih := ih step.machine (willing.writeAll step.chunks).2 err
      rw [hfirst] at ih
      rw [Step.segments_of_ok h hfirst, List.filterMap_cons_none (Step.failure?_of_ok h),
        List.cons_append, replay, Run.ofSteps_cons willing h]
      exact ih

/-- Behind the first run, the runs are those of the machine that it leaves. -/
lemma drop_runs_succ (count k : Nat) (m : Machine) (out : σ) (err : τ) :
    (m.runs (count + 1) out err).drop (k + 1) =
      let result := m.quietRun out err
      (result.1.machine.runs count result.1.out result.2).drop k := rfl

/-- Later runs depend on no more than what the first drive does. -/
lemma drop_runs_congr (count k : Nat) (h : (m.drive out).quiet = (m'.drive out').quiet) (err : τ) :
    (m.runs count out err).drop (k + 1) = (m'.runs count out' err).drop (k + 1) := by
  cases count with
  | zero => rfl
  | succ count => rw [drop_runs_succ, drop_runs_succ, quietRun_eq_close, quietRun_eq_close, h]

/-- The runs behind the one that halts the machine are runs of the halted machine. -/
lemma Traces.drop_runs (traces : Traces m steps) (willing : Sink.NeverRefuses out) (err : τ)
    (more : Nat) :
    let count := (steps.filterMap Step.failure?).length
    ∃ (out' : σ) (err' : τ), Sink.NeverRefuses out' ∧
      (m.runs (count + 1 + more) out err).drop (count + 1) =
        (m.behind steps).runs more out' err' := by
  induction traces generalizing out err with
  | @halted m halted =>
    let result := (Run.ofSteps m out []).close err
    refine ⟨result.1.out, result.2, willing.flush.2, ?_⟩
    rw [List.filterMap_nil, List.length_nil, Nat.add_right_comm, drop_runs_succ,
      quietRun_of_halted halted, Nat.zero_add]
    rfl
  | @step m steps running _ ih =>
    rw [behind_cons]
    cases h : (m.step Buffer.unlimited).error with
    | some e =>
      have drive := quiet_drive_of_step_error running willing h
      have next := (willing.writeAll ([m.step Buffer.unlimited].flatMap Step.chunks)).2.flush.2
      rw [List.filterMap_cons_some (Step.failure?_of_error h), List.length_cons]
      dsimp only
      rw [Nat.add_right_comm _ 1 more, drop_runs_succ, quietRun_eq_close, drive]
      exact ih next _
    | none =>
      have drive := quiet_drive_of_step_ok running willing h
      obtain ⟨out', err', willing', h'⟩ :=
        ih (willing.writeAll (m.step Buffer.unlimited).chunks).2 err
      rw [List.filterMap_cons_none (Step.failure?_of_ok h)]
      refine ⟨out', err', willing', ?_⟩
      rw [← h']
      exact drop_runs_congr _ _ drive err

/-- A run of a halted machine pulls no instruction. -/
lemma events_of_halted (halted : m.halted = true) (count : Nat) (willing : Sink.NeverRefuses out)
    (err : τ) :
    ∀ result ∈ m.runs count out err, result.1.events =
      [.runStarted m.stack.limit, .runFinished m.stack.size] := by
  induction count generalizing out err with
  | zero =>
    intro result h
    cases h
  | succ count ih =>
    have execute : m.execute out =
        ⟨m, (Sink.flush out).2, none, [.runStarted m.stack.limit, .runFinished m.stack.size]⟩ := by
      simp [Machine.execute, drive_of_halted halted, willing.flush.1]
    intro result h
    rw [runs, run_eq, execute] at h
    cases h with
    | head => rfl
    | tail _ h => exact ih willing.flush.2 _ result h

/-- The chunks of a step of a trace are what it writes. -/
lemma Traces.flatten_chunks (traces : Traces m steps) :
    ∀ step ∈ steps, step.chunks.flatten = step.output := by
  induction traces with
  | halted _ => exact List.forall_mem_nil _
  | step _ _ ih => exact List.forall_mem_cons.mpr ⟨flatten_chunks_step _, ih⟩

/-- Over a source of `N` lines, and with an output that refuses nothing, stepping on behind failures
halts the machine within `N + 1` steps, and fails at lines from 1 to `N`. The runs fail with these
failures, one each and in order, and then succeed; each run takes the steps behind the failure
before it, so that it writes what they write, chunk by chunk, and leaves the machine they leave.
From the run that halts the machine on it stays as it is, and later runs pull and write nothing. -/
theorem runs_eq_replay_trace {N : Nat} {source : Source} (lines : source.HasLines N)
    (limit : Option Nat) {out : σ} (willing : Sink.NeverRefuses out) (err : τ) (more : Nat) :
    let m := start source limit
    let failures := m.trace.filterMap Step.failure?
    let final := m.behind m.trace
    let results := m.runs (failures.length + 1 + more) out err
    (m.trace.length ≤ N + 1 ∧ final.halted = true) ∧
    (∀ failure ∈ failures, 1 ≤ failure.line ∧ failure.line ≤ N) ∧
    results.map (·.1.failure) = failures.map some ++ List.replicate (more + 1) none ∧
    results.map (fun result => (result.1.quiet, result.2)) =
      replay (Step.segments m.trace ++ List.replicate more []) m out err ∧
    (∀ step ∈ m.trace, step.chunks.flatten = step.output) ∧
    (∀ result ∈ results.drop failures.length, result.1.machine = final) ∧
    (∀ result ∈ results.drop (failures.length + 1),
      result.1.events = [.runStarted final.stack.limit, .runFinished final.stack.size]) := by
  intro m failures final results
  have traces : Traces m m.trace := traces_trace lines
  have replayed : results.map (fun result => (result.1.quiet, result.2)) =
      replay (Step.segments m.trace ++ List.replicate more []) m out err := by
    have h := traces.quietRuns_eq_replay willing err more
    rw [Step.length_segments] at h
    exact h
  refine ⟨⟨?_, traces.halted_behind⟩, traces.failure_line lines, ?_, replayed,
    traces.flatten_chunks, ?_, ?_⟩
  · exact Nat.le_of_add_right_le (traces.length_le lines rfl)
  · have h := failures_replay (Step.segments m.trace ++ List.replicate more []) m willing err
    rw [← replayed, List.map_map, List.map_append, Step.map_lastFailure?_segments,
      List.map_replicate, List.append_assoc] at h
    exact h
  · intro result h
    have mem := List.mem_map_of_mem (f := fun r => (r.1.quiet, r.2)) h
    rw [List.map_drop, replayed] at mem
    exact machine_replay m.trace m willing err more (result.1.quiet, result.2) mem
  · obtain ⟨out', err', willing', later⟩ := traces.drop_runs willing err more
    intro result h
    rw [later] at h
    exact events_of_halted traces.halted_behind more willing' err' result h

/-- A program that fails at its first and fourth instruction takes three runs, and a fourth run does
nothing. -/
theorem runs_eq_replay_trace_of_two_failures :
    let source := Source.program (.ofList
      [⟨.pop, none⟩, ⟨.push, some ⟨.int8, "65"⟩⟩, ⟨.print, none⟩, ⟨.binary .add, none⟩,
        ⟨.dump, none⟩])
    let results := (start source none).runs 4 Buffer.unlimited Buffer.unlimited
    source.HasLines 5 ∧
    results.map (·.1.failure) =
      [some ⟨1, .stackUnderflow .pop 1 0⟩, some ⟨4, .stackUnderflow (.binary .add) 2 1⟩, none,
        none] ∧
    ∀ result ∈ results.drop 2, result.1.machine.halted = true := by
  intro source results
  have lines : source.HasLines 5 := .program rfl
  have willing : Sink.NeverRefuses Buffer.unlimited := Buffer.neverRefuses rfl rfl
  have failures : (start source none).trace.filterMap Step.failure? =
      [⟨1, .stackUnderflow .pop 1 0⟩, ⟨4, .stackUnderflow (.binary .add) 2 1⟩] := by decide +kernel
  obtain ⟨⟨-, halted⟩, -, failed, -, -, stays, -⟩ :=
    runs_eq_replay_trace lines none willing Buffer.unlimited 1
  rw [failures] at failed stays
  refine ⟨lines, failed, fun result h => ?_⟩
  rw [stays result h]
  exact halted

end Machine

end TypedStack
