import TypedStack.Proofs.Output
import TypedStack.Proofs.Progress

/-!
# Outputs that fill up

A run on a buffer that fills up is the run on one that takes everything, up to the instruction whose
bytes do not fit any more. That instruction fails after what did fit, so the buffer is left with the
first bytes of the whole output. A buffer that cannot be flushed makes a difference only to a run
that goes well.
-/

namespace TypedStack

namespace Buffer

/-- A buffer that has taken some bytes. -/
def holding (capacity : Option (Nat × String)) (refusal : Option String) (bytes : List UInt8) :
    Buffer :=
  ⟨bytes.toArray, capacity, refusal⟩

/-- Buffers of this capacity take `count` bytes in total. -/
def Takes (capacity : Option (Nat × String)) (count : Nat) : Prop :=
  ∀ size reason, capacity = some (size, reason) → count ≤ size

variable {capacity : Option (Nat × String)} {refusal : Option String} {bytes more : List UInt8}
  {size : Nat} {reason : String}

/-- The bytes that a buffer holds are those it has taken. -/
@[simp] lemma bytes_holding : (holding capacity refusal bytes).bytes = bytes := rfl

/-- A buffer that takes some bytes takes fewer. -/
lemma Takes.mono {count count' : Nat} (takes : Takes capacity count') (le : count ≤ count') :
    Takes capacity count :=
  fun size reason h => Nat.le_trans le (takes size reason h)

/-- A buffer without a capacity takes any number of bytes. -/
lemma takes_none (count : Nat) : Takes none count := by
  intro size reason h
  cases h

/-- Appended bytes come behind those that a buffer holds. -/
lemma append_holding : (holding capacity refusal bytes).append more =
    holding capacity refusal (bytes ++ more) := by
  simp [holding, append]

/-- A buffer takes bytes that fit. -/
lemma write_holding (takes : Takes capacity (bytes.length + more.length)) :
    Sink.write (holding capacity refusal bytes) more =
      (none, holding capacity refusal (bytes ++ more)) := by
  rw [← append_holding]
  cases capacity with
  | none => exact write_of_unlimited rfl more
  | some limit =>
    have fits : bytes.length + more.length ≤ limit.1 := takes limit.1 limit.2 rfl
    refine write_of_le rfl ?_
    show more.length ≤ limit.1 - bytes.length
    omega

/-- Of the bytes that do not all fit, a buffer takes those that do. -/
lemma write_holding_of_full (reason : String) (refusal : Option String)
    (within : bytes.length ≤ size) (full : size < bytes.length + more.length) :
    Sink.write (holding (some (size, reason)) refusal bytes) more =
      (some reason, holding (some (size, reason)) refusal ((bytes ++ more).take size)) := by
  have room : size - bytes.length < more.length := by omega
  rw [List.take_append, List.take_of_length_le within, ← append_holding]
  exact write_of_gt rfl room

end Buffer

/-- The same step, with its output in another buffer. -/
def Step.into (capacity : Option (Nat × String)) (refusal : Option String) (step : Step Buffer) :
    Step Buffer :=
  { step with out := .holding capacity refusal step.out.bytes }

/-- The same run, with its output in another buffer. -/
def Run.into (capacity : Option (Nat × String)) (refusal : Option String) (run : Run Buffer) :
    Run Buffer :=
  { run with out := .holding capacity refusal run.out.bytes }

namespace Machine

variable {σ τ : Type} [Sink σ] [Sink τ] {m : Machine}

/-- A step whose chunks are refused is a dump or a print, and fails without changing the stack. -/
lemma step_of_refused {out out' : σ} {reason : String}
    (refused : Sink.writeAll out (m.step Buffer.unlimited).chunks = (some reason, out')) :
    ∃ i, m.source.next.result = .ok i ∧ (i.opcode = .dump ∨ i.opcode = .print) ∧
      (m.step out).error = some (.device reason) ∧ (m.step out).out = out' ∧
      (m.step out).machine = ⟨m.source.next.source, m.stack, m.halted⟩ := by
  cases h : m.source.next.result with
  | error e =>
    rw [step_of_pull_error h] at refused
    cases refused
  | ok i =>
    rw [chunks_step h] at refused
    have hop : i.opcode = .dump ∨ i.opcode = .print := by
      unfold Instruction.chunks at refused
      cases hop : i.opcode with
      | dump => exact .inl rfl
      | print => exact .inr rfl
      | push | pop | assert | binary | exit =>
        rw [hop] at refused
        cases refused
    have running : (i.opcode == .exit) = false := by
      rcases hop with hop | hop <;> rw [hop] <;> rfl
    rw [step_of_pull_ok h, Effect.ofInstruction_eq_onDevice i m.stack out, Effect.onDevice]
    simp only [refused, running, Bool.or_false]
    exact ⟨i, rfl, hop, rfl, rfl, rfl⟩

section
open Buffer (holding Takes)

variable {capacity : Option (Nat × String)} {refusal : Option String} {bytes : List UInt8}

/-- On a buffer that takes its bytes, a step adds them and does nothing else that it does not do on
any other buffer. -/
lemma step_holding
    (takes : Takes capacity (bytes.length + (m.step Buffer.unlimited).output.length)) :
    m.step (holding capacity refusal bytes) =
      { m.step Buffer.unlimited with
        out := holding capacity refusal (bytes ++ (m.step Buffer.unlimited).output) } :=
  step_of_taken ((writeAll_chunks_step m _).trans (Buffer.write_holding takes))

/-- On a buffer that takes everything, a step adds its bytes. -/
lemma out_step (m : Machine) (bytes : List UInt8) :
    (m.step (holding none none bytes)).out =
      holding none none (bytes ++ (m.step Buffer.unlimited).output) :=
  congrArg Step.out (step_holding (Buffer.takes_none _))

/-- A step whose bytes fit is the same on every buffer. -/
lemma step_into (takes : Takes capacity (m.step (holding none none bytes)).out.bytes.length) :
    m.step (holding capacity refusal bytes) =
      (m.step (holding none none bytes)).into capacity refusal := by
  rw [out_step, Buffer.bytes_holding, List.length_append] at takes
  rw [step_holding takes, step_holding (Buffer.takes_none _)]
  rfl

/-- A drive on a buffer that takes everything adds bytes to it. -/
lemma exists_out_drive (m : Machine) (bytes : List UInt8) :
    ∃ more, (m.drive (holding none none bytes)).out = holding none none (bytes ++ more) := by
  refine drive_induction (P := fun _ out => ∃ more, out = holding none none (bytes ++ more)) ?_
    ⟨[], by rw [List.append_nil]⟩
  rintro m _ - ⟨more, rfl⟩
  exact ⟨more ++ (m.step Buffer.unlimited).output, by rw [out_step, List.append_assoc]⟩

/-- A drive keeps the bytes that were there before. -/
lemma prefix_drive (m : Machine) (bytes : List UInt8) :
    bytes <+: (m.drive (holding none none bytes)).out.bytes := by
  obtain ⟨more, out⟩ := exists_out_drive m bytes
  rw [out]
  exact List.prefix_append bytes more

/-- A drive whose bytes all fit is the same on every buffer. -/
lemma drive_into (takes : Takes capacity (m.drive (holding none none bytes)).out.bytes.length) :
    m.drive (holding capacity refusal bytes) =
      (m.drive (holding none none bytes)).into capacity refusal := by
  generalize hout : holding none none bytes = out at takes
  fun_induction Machine.drive m out generalizing bytes with
  | case1 m out halted =>
    subst hout
    exact drive_of_halted halted
  | case2 m out running step e =>
    rename_i he
    subst hout
    have same : m.step (holding capacity refusal bytes) = step.into capacity refusal :=
      step_into takes
    rw [drive_of_error (Bool.eq_false_iff.mpr running) ((congrArg Step.error same).trans he), same]
    rfl
  | case3 m out running step ok rest =>
    rename_i ih
    subst hout
    have out : step.out = holding none none (bytes ++ (m.step Buffer.unlimited).output) :=
      out_step m bytes
    -- what the step writes is a part of what the drive writes, so it fits as well
    have le : step.out.bytes.length ≤ (step.machine.drive step.out).out.bytes.length := by
      rw [out]
      exact (prefix_drive step.machine _).length_le
    have same : m.step (holding capacity refusal bytes) = step.into capacity refusal :=
      step_into (takes.mono le)
    have rest : step.machine.drive (holding capacity refusal step.out.bytes) = _ :=
      ih (by rw [out]; rfl) takes
    rw [drive_of_ok (Bool.eq_false_iff.mpr running) ((congrArg Step.error same).trans ok), same]
    simp only [Step.into, rest]
    rfl

/-- The running machine `m'` that a run of `m` comes to fetches `i`, a dump or a print, which writes
byte number `size + 1` to a buffer that takes everything. -/
structure WritesAt (m : Machine) (size : Nat) (m' : Machine) (i : Instruction) : Prop where
  reached : ∃ count out, advance count m Buffer.unlimited = some (m', out) ∧
    out.bytes.length ≤ size ∧ size < (m'.step out).out.bytes.length
  running : m'.halted = false
  fetched : m'.source.next.result = .ok i
  writes : i.opcode = .dump ∨ i.opcode = .print

/-- A drive keeps the bytes of its first step. -/
lemma prefix_drive_of_step (running : m.halted = false) (bytes : List UInt8) :
    bytes ++ (m.step Buffer.unlimited).output <+:
      (m.drive (holding none none bytes)).out.bytes := by
  have out := out_step m bytes
  cases he : (m.step (holding none none bytes)).error with
  | some e =>
    rw [drive_of_error running he, out]
    exact List.prefix_rfl
  | none =>
    rw [drive_of_ok running he, out]
    exact prefix_drive _ _

/-- A drive whose bytes do not all fit comes to an instruction whose bytes do not, and so far the
buffers are alike. -/
lemma exists_advance_of_full {size : Nat} (reason : String) (refusal : Option String)
    (within : bytes.length ≤ size)
    (full : size < (m.drive (holding none none bytes)).out.bytes.length) :
    ∃ count m' bytes', m'.halted = false ∧ bytes'.length ≤ size ∧
      size < bytes'.length + (m'.step Buffer.unlimited).output.length ∧
      advance count m (holding none none bytes) = some (m', holding none none bytes') ∧
      advance count m (holding (some (size, reason)) refusal bytes) =
        some (m', holding (some (size, reason)) refusal bytes') := by
  generalize hout : holding none none bytes = out at full
  fun_induction Machine.drive m out generalizing bytes with
  | case1 m out halted =>
    subst hout
    exact absurd full (Nat.not_lt.mpr within)
  | case2 m out running step e =>
    subst hout
    have running := Bool.eq_false_iff.mpr running
    have full : size < (m.step (holding none none bytes)).out.bytes.length := full
    rw [out_step, Buffer.bytes_holding, List.length_append] at full
    exact ⟨0, m, bytes, running, within, full, rfl, rfl⟩
  | case3 m out running step ok rest =>
    rename_i ih
    subst hout
    have running := Bool.eq_false_iff.mpr running
    have out : step.out = holding none none (bytes ++ (m.step Buffer.unlimited).output) :=
      out_step m bytes
    -- either this step writes the first byte too many, or a later one does
    rcases Nat.lt_or_ge size (bytes ++ (m.step Buffer.unlimited).output).length with cut | fits
    · rw [List.length_append] at cut
      exact ⟨0, m, bytes, running, within, cut, rfl, rfl⟩
    · have same : m.step (holding (some (size, reason)) refusal bytes) =
          step.into (some (size, reason)) refusal := by
        refine step_into ?_
        rintro _ _ ⟨⟩
        rw [out_step]
        exact fits
      obtain ⟨count, m', bytes', running', within', cut, free, bounded⟩ := ih fits out.symm full
      refine ⟨count + 1, m', bytes', running', within', cut, ?_, ?_⟩
      · rw [advance_of_ok running ok, ← free]
      · rw [advance_of_ok running ((congrArg Step.error same).trans ok), same]
        simp only [Step.into, out, Buffer.bytes_holding]
        exact bounded

/-- A drive whose bytes do not all fit fails at the instruction whose bytes do not, after those that
do. -/
lemma quiet_drive_of_full {size : Nat} (reason : String) (refusal : Option String)
    (full : size < (m.drive Buffer.unlimited).out.bytes.length) :
    ∃ m' i, m.WritesAt size m' i ∧
      (m.drive (holding (some (size, reason)) refusal [])).quiet =
        ⟨⟨m'.source.next.source, m'.stack, false⟩,
          holding (some (size, reason)) refusal ((m.drive Buffer.unlimited).out.bytes.take size),
          some ⟨m'.source.next.source.line, .device reason⟩, []⟩ := by
  obtain ⟨count, m', bytes, running, within, cut, free, bounded⟩ :=
    exists_advance_of_full reason refusal (Nat.zero_le size) full
  obtain ⟨i, fetched, hop, failed, out, machine⟩ :=
    step_of_refused ((writeAll_chunks_step m' _).trans
      (Buffer.write_holding_of_full reason refusal within cut))
  -- the run goes on behind the cut, but what it has written up to there is the same
  have first : (m.drive Buffer.unlimited).out.bytes.take size =
      (bytes ++ (m'.step Buffer.unlimited).output).take size := by
    have total : (m.drive Buffer.unlimited).out = (m'.drive (holding none none bytes)).out :=
      (Run.mk.inj (quiet_drive_of_advance free)).2.1
    obtain ⟨more, whole⟩ := prefix_drive_of_step running bytes
    rw [total, ← whole, List.take_append_of_le_length]
    rw [List.length_append]
    exact Nat.le_of_lt cut
  refine ⟨m', i, ⟨⟨count, holding none none bytes, free, within, ?_⟩, running, fetched, hop⟩, ?_⟩
  · rw [out_step, Buffer.bytes_holding, List.length_append]
    exact cut
  · rw [quiet_drive_of_advance bounded, drive_of_error running failed, out, machine, first, running]
    rfl

/-- Flushing makes no difference to a buffer, and a refusal to flush only to a run that went
well. -/
lemma close_into {run : Run Buffer} (out : run.out = holding none none bytes) (err : τ)
    (h : refusal = none ∨ (run.close err).1.succeeded = false) :
    (run.into capacity refusal).close err =
      ((run.close err).1.into capacity refusal, (run.close err).2) := by
  obtain ⟨machine, _, failure, events⟩ := run
  cases out
  cases failure with
  | some failure => rfl
  | none =>
    rcases h with rfl | failed
    · rfl
    · cases failed

/-- A run that went well fails on a buffer that cannot be flushed, and has nothing else to tell. -/
lemma close_into_of_refusal {run : Run Buffer} {reason : String}
    (out : run.out = holding none none bytes) (err : τ)
    (succeeded : (run.close err).1.succeeded = true) :
    let failure : Failure := ⟨run.machine.line, .device reason⟩
    (run.into capacity (some reason)).close err =
      ({ (run.close err).1.into capacity (some reason) with failure := some failure },
        (Sink.write err (Text.encode failure.report)).2) := by
  obtain ⟨machine, _, failure, events⟩ := run
  cases out
  cases failure with
  | some failure => cases succeeded
  | none => rfl

/-- Let `written` be what the first run writes to a buffer that takes everything. On a buffer that
takes as much, the run is the same; if the buffer cannot be flushed, then only a run that would have
succeeded differs, and it fails with the machine halted. On a buffer that takes less, whether or not
it can be flushed, the run fails for the reason that the buffer gives. It fails at the line of the
instruction that writes the first byte too many, leaves the stack which that instruction saw, does
not halt the machine, and has written the first bytes of `written`, as many as the buffer takes. -/
theorem run_into_capacity (source : Source) (limit : Option Nat) (err : τ) :
    let m := start source limit
    let free := m.quietRun Buffer.unlimited err
    let written := free.1.out.bytes
    (∀ capacity refusal, Takes capacity written.length →
      let bounded := m.quietRun (holding capacity refusal []) err
      (refusal = none ∨ free.1.succeeded = false →
        bounded = (free.1.into capacity refusal, free.2)) ∧
      (∀ reason, refusal = some reason → free.1.succeeded = true →
        let failure : Failure := ⟨free.1.machine.line, .device reason⟩
        free.1.machine.halted = true ∧
        bounded =
          ({ free.1.into capacity refusal with failure := some failure },
            (Sink.write err (Text.encode failure.report)).2))) ∧
    (∀ size reason refusal, size < written.length → ∃ m' i, m.WritesAt size m' i ∧
      let failure : Failure := ⟨m'.source.next.source.line, .device reason⟩
      m.quietRun (holding (some (size, reason)) refusal []) err =
        (⟨⟨m'.source.next.source, m'.stack, false⟩,
          holding (some (size, reason)) refusal (written.take size),
            some failure, []⟩,
          (Sink.write err (Text.encode failure.report)).2)) := by
  intro m free written
  obtain ⟨all, out⟩ : ∃ all, (m.drive Buffer.unlimited).out = holding none none all :=
    exists_out_drive m []
  have hfree : free = (m.drive Buffer.unlimited).quiet.close err :=
    quietRun_eq_close m Buffer.unlimited err
  have hwritten : written = (m.drive Buffer.unlimited).out.bytes := congrArg (·.1.out.bytes) hfree
  refine ⟨fun capacity refusal takes => ?_, fun size reason refusal full => ?_⟩
  · rw [hwritten] at takes
    have drive : m.drive (holding capacity refusal []) =
        (m.drive Buffer.unlimited).into capacity refusal :=
      drive_into takes
    have halted : free.1.succeeded = true → free.1.machine.halted = true := halted_run_of_succeeded
    rw [quietRun_eq_close, drive]
    rw [hfree] at halted ⊢
    refine ⟨close_into out err, ?_⟩
    rintro reason rfl succeeded
    exact ⟨halted succeeded, close_into_of_refusal out err succeeded⟩
  · rw [hwritten] at full ⊢
    obtain ⟨m', i, writes, drive⟩ := quiet_drive_of_full reason refusal full
    refine ⟨m', i, writes, ?_⟩
    rw [quietRun_eq_close, drive]
    rfl

end

end Machine

end TypedStack
