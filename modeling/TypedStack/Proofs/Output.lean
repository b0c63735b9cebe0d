import TypedStack.Proofs.Execution
import TypedStack.Proofs.Outcome

/-!
# What is written

A step offers chunks of bytes to whatever device it is given. Which ones these are does not depend
on the device: `Effect.ofInstruction_eq_onDevice` gives the effect on any device from that on a
buffer that takes everything, and `Machine.step_of_neverRefuses` says the same of steps, for devices
that never refuse anything. To a buffer it makes no difference how bytes are cut into chunks.
-/

namespace TypedStack

namespace Sink

variable {σ : Type} [Sink σ] {out : σ}

/-- What becomes of a device that is offered chunks and, at each `none`, flushed. -/
def after (out : σ) : List (Option (List UInt8)) → σ
  | [] => out
  | some chunk :: requests => after (write out chunk).2 requests
  | none :: requests => after (flush out).2 requests

/-- Whatever was offered before, what the device answers to the next chunk and to a flush satisfies
`P`. -/
def Answers (P : Option String → Prop) (out : σ) : Prop :=
  ∀ requests, (∀ chunk, P (write (after out requests) chunk).1) ∧ P (flush (after out requests)).1

namespace Answers

variable {P : Option String → Prop}

/-- The answer to a chunk satisfies `P`, and so do those after it. -/
lemma write (answers : Answers P out) (chunk : List UInt8) :
    P (write out chunk).1 ∧ Answers P (write out chunk).2 :=
  ⟨(answers []).1 chunk, fun requests => answers (some chunk :: requests)⟩

/-- The answer to a flush satisfies `P`, and so do those after it. -/
lemma flush (answers : Answers P out) : P (flush out).1 ∧ Answers P (flush out).2 :=
  ⟨(answers []).2, fun requests => answers (none :: requests)⟩

/-- The answer to chunks in order satisfies `P`, and so do those after it. -/
lemma writeAll (answers : Answers P out) (taken : P none) (chunks : List (List UInt8)) :
    P (writeAll out chunks).1 ∧ Answers P (writeAll out chunks).2 := by
  induction chunks generalizing out with
  | nil => exact ⟨taken, answers⟩
  | cons chunk chunks ih =>
    obtain ⟨answer, next⟩ := answers.write chunk
    have rest := ih next
    rw [Sink.writeAll]
    split
    · next h =>
      rw [h] at rest
      exact rest
    · next h =>
      rw [h] at answer next
      exact ⟨answer, next⟩

end Answers

/-- Whatever was offered before, the device takes the next chunk and flushes. -/
def NeverRefuses (out : σ) : Prop :=
  ∀ requests, (∀ chunk, (write (after out requests) chunk).1 = none) ∧
    (flush (after out requests)).1 = none

/-- A device that never refuses is one that answers nothing but that it did as asked. -/
lemma neverRefuses_iff : NeverRefuses out ↔ Answers (· = none) out := Iff.rfl

namespace NeverRefuses

/-- A chunk is taken, and so is all after it. -/
lemma write (willing : NeverRefuses out) (chunk : List UInt8) :
    (write out chunk).1 = none ∧ NeverRefuses (write out chunk).2 :=
  Answers.write (neverRefuses_iff.mp willing) chunk

/-- A flush is done, and all after it is taken. -/
lemma flush (willing : NeverRefuses out) : (flush out).1 = none ∧ NeverRefuses (flush out).2 :=
  Answers.flush (neverRefuses_iff.mp willing)

/-- Chunks are all taken, and so is all after them. -/
lemma writeAll (willing : NeverRefuses out) (chunks : List (List UInt8)) :
    (writeAll out chunks).1 = none ∧ NeverRefuses (writeAll out chunks).2 :=
  Answers.writeAll (neverRefuses_iff.mp willing) rfl chunks

end NeverRefuses

/-- More chunks are offered if those before them were taken. -/
lemma writeAll_append {chunks : List (List UInt8)} (taken : (writeAll out chunks).1 = none)
    (more : List (List UInt8)) :
    writeAll out (chunks ++ more) = writeAll (writeAll out chunks).2 more := by
  induction chunks generalizing out with
  | nil => rfl
  | cons chunk chunks ih =>
    rw [writeAll] at taken
    rw [List.cons_append, writeAll, writeAll]
    cases h : write out chunk with
    | mk refusal out' =>
      rw [h] at taken
      cases refusal with
      | none => exact ih taken
      | some reason => cases taken

end Sink

namespace Buffer

/-- A buffer without a capacity takes every chunk. -/
lemma write_of_unlimited {out : Buffer} (capacity : out.capacity = none) (chunk : List UInt8) :
    Sink.write out chunk = (none, out.append chunk) := by
  simp only [Sink.write, capacity]

/-- A buffer with a capacity takes a chunk that fits. -/
lemma write_of_le {out : Buffer} {size : Nat} {reason : String} {chunk : List UInt8}
    (capacity : out.capacity = some (size, reason))
    (fits : chunk.length ≤ size - out.written.size) :
    Sink.write out chunk = (none, out.append chunk) := by
  simp only [Sink.write, capacity, if_pos fits]

/-- Of a chunk that does not fit, a buffer takes the bytes that do. -/
lemma write_of_gt {out : Buffer} {size : Nat} {reason : String} {chunk : List UInt8}
    (capacity : out.capacity = some (size, reason))
    (full : size - out.written.size < chunk.length) :
    Sink.write out chunk = (some reason, out.append (chunk.take (size - out.written.size))) := by
  simp only [Sink.write, capacity, if_neg (Nat.not_le.mpr full)]

/-- A buffer takes some bytes of a chunk, and refuses the others only for the reason it has. -/
lemma write_cases (out : Buffer) (chunk : List UInt8) :
    ∃ taken, Sink.write out chunk = (none, out.append taken) ∨
      ∃ size reason, out.capacity = some (size, reason) ∧
        Sink.write out chunk = (some reason, out.append taken) := by
  cases capacity : out.capacity with
  | none => exact ⟨chunk, .inl (write_of_unlimited capacity chunk)⟩
  | some limit =>
    obtain ⟨size, reason⟩ := limit
    rcases Nat.lt_or_ge (size - out.written.size) chunk.length with full | fits
    · exact ⟨_, .inr ⟨size, reason, rfl, write_of_gt capacity full⟩⟩
    · exact ⟨chunk, .inl (write_of_le capacity fits)⟩

/-- A buffer answers with the reasons that it has. -/
lemma answers {out : Buffer} {P : Option String → Prop} (taken : P none)
    (full : ∀ size reason, out.capacity = some (size, reason) → P (some reason))
    (flushes : P out.flushRefusal) :
    Sink.Answers P out := by
  intro requests
  induction requests generalizing out with
  | nil =>
    refine ⟨fun chunk => ?_, flushes⟩
    rw [Sink.after]
    obtain ⟨_, h | ⟨size, reason, capacity, h⟩⟩ := out.write_cases chunk
    · rw [h]
      exact taken
    · rw [h]
      exact full size reason capacity
  | cons request requests ih =>
    cases request with
    | none => exact ih full flushes
    | some chunk =>
      -- what was appended changes neither the capacity nor the flush
      obtain ⟨more, h | ⟨_, _, _, h⟩⟩ := out.write_cases chunk
      · rw [Sink.after, h]
        exact ih full flushes
      · rw [Sink.after, h]
        exact ih full flushes

/-- A buffer without a reason to refuse never refuses. -/
lemma neverRefuses {out : Buffer} (capacity : out.capacity = none)
    (flushes : out.flushRefusal = none) :
    Sink.NeverRefuses out := by
  refine Sink.neverRefuses_iff.mpr (answers rfl (fun size reason limited => ?_) flushes)
  cases capacity.symm.trans limited

/-- Bytes are appended one list after the other. -/
lemma append_append (out : Buffer) (chunk more : List UInt8) :
    (out.append chunk).append more = out.append (chunk ++ more) := by
  rw [append, append, append, Buffer.mk.injEq]
  exact ⟨Array.ext' (by simp), rfl, rfl⟩

/-- A buffer has taken the bytes that were appended. -/
lemma size_append (out : Buffer) (chunk : List UInt8) :
    (out.append chunk).written.size = out.written.size + chunk.length := by
  rw [← Array.length_toList, append]
  simp

/-- What a buffer takes of two lists of bytes it takes of both at once. -/
lemma write_append (out : Buffer) (chunk more : List UInt8) :
    Sink.write out (chunk ++ more) =
      match Sink.write out chunk with
      | (none, out) => Sink.write out more
      | (some reason, out) => (some reason, out) := by
  have kept : (out.append chunk).capacity = out.capacity := rfl
  cases capacity : out.capacity with
  | none =>
    rw [write_of_unlimited capacity, write_of_unlimited capacity]
    dsimp only
    rw [write_of_unlimited (kept.trans capacity), append_append]
  | some limit =>
    obtain ⟨size, reason⟩ := limit
    have kept := kept.trans capacity
    have length : (chunk ++ more).length = chunk.length + more.length := List.length_append
    rcases Nat.lt_or_ge (size - out.written.size) chunk.length with full | fits
    · rw [write_of_gt capacity full, write_of_gt capacity (by omega),
        List.take_append_of_le_length (Nat.le_of_lt full)]
    · -- the room behind the first list is what it leaves of the room before it
      have room := out.size_append chunk
      rw [write_of_le capacity fits]
      dsimp only
      rcases Nat.lt_or_ge (size - out.written.size) (chunk ++ more).length with full | fits
      · rw [write_of_gt capacity full, write_of_gt kept (by omega), append_append,
          List.take_append, List.take_of_length_le fits, room, Nat.sub_add_eq]
      · rw [write_of_le capacity fits, write_of_le kept (by omega), append_append]

/-- A buffer takes nothing of nothing. -/
lemma write_nil (out : Buffer) : Sink.write out [] = (none, out) := by
  have same : out.append [] = out := by simp [append]
  cases capacity : out.capacity with
  | none => rw [write_of_unlimited capacity, same]
  | some limit => rw [write_of_le capacity (Nat.zero_le _), same]

/-- A buffer takes of chunks what it takes of their bytes. -/
lemma writeAll_eq_write (out : Buffer) (chunks : List (List UInt8)) :
    Sink.writeAll out chunks = Sink.write out chunks.flatten := by
  induction chunks generalizing out with
  | nil => exact (write_nil out).symm
  | cons chunk chunks ih =>
    rw [List.flatten_cons, write_append, Sink.writeAll]
    cases Sink.write out chunk with
    | mk refusal out' =>
      cases refusal with
      | none => exact ih out'
      | some reason => rfl

/-- An empty buffer without a capacity takes all chunks. -/
lemma writeAll_unlimited (chunks : List (List UInt8)) :
    Sink.writeAll unlimited chunks = (none, ⟨chunks.flatten.toArray, none, none⟩) := by
  rw [writeAll_eq_write, write_of_unlimited rfl]
  simp [unlimited, append]

end Buffer

namespace Stack

/-- The lines that a dump writes. -/
def dumped (s : Stack) : List (List UInt8) := s.items.map fun x => Text.encode (x.text ++ "\n")

/-- The byte that a print writes, if there is one on top. -/
def printed (s : Stack) : List (List UInt8) :=
  match s.top? with
  | some ⟨.int8, code⟩ => [[UInt8.ofBitVec code]]
  | _ => []

end Stack

/-- The chunks that an instruction offers to the output. -/
def Instruction.chunks (i : Instruction) (s : Stack) : List (List UInt8) :=
  match i.opcode with
  | .dump => s.dumped
  | .print => s.printed
  | _ => []

namespace Effect

variable {σ : Type} [Sink σ]

/-- The effect on a device `out` that is offered `chunks`, given the effect on a buffer that takes
everything. -/
def onDevice (chunks : List (List UInt8)) (s : Stack) (out : σ) (effect : Effect Buffer) :
    Effect σ :=
  match Sink.writeAll out chunks with
  | (none, out) => ⟨effect.stack, out, effect.error, effect.events⟩
  | (some reason, out) => failed s out (.device reason)

/-- Writing succeeds on a device that takes the chunks, and fails on the others. -/
lemma write_eq_onDevice (chunks : List (List UInt8)) (s : Stack) (out : σ) :
    write chunks s out = (write chunks s Buffer.unlimited).onDevice chunks s out := by
  have onBuffer : write chunks s Buffer.unlimited =
      done s ⟨chunks.flatten.toArray, none, none⟩ := by
    rw [write, Buffer.writeAll_unlimited]
  rw [onBuffer]
  rfl

/-- A push does not look at the device. -/
lemma push_eq_onDevice (x : Operand) (s : Stack) (out : σ) :
    push x s out = (push x s Buffer.unlimited).onDevice [] s out := by
  unfold push
  cases s.push x with
  | error e => rfl
  | ok stack => rfl

/-- An assertion does not look at the device. -/
lemma assert_eq_onDevice (x : Operand) (s : Stack) (out : σ) :
    assert x s out = (assert x s Buffer.unlimited).onDevice [] s out := by
  unfold assert
  by_cases holds : s.top?.map Operand.text = some x.text
  · simp only [if_pos holds]
    rfl
  · simp only [if_neg holds]
    rfl

/-- A pop does not look at the device. -/
lemma pop_eq_onDevice (s : Stack) (out : σ) :
    pop s out = (pop s Buffer.unlimited).onDevice [] s out := by
  unfold pop
  cases s.pop? with
  | none => rfl
  | some top => rfl

/-- Arithmetic does not look at the device. -/
lemma binary_eq_onDevice (op : BinaryOp) (s : Stack) (out : σ) :
    binary op s out = (binary op s Buffer.unlimited).onDevice [] s out := by
  unfold binary
  cases s.popPair? with
  | none => rfl
  | some top =>
    obtain ⟨y, x, rest⟩ := top
    dsimp only
    cases x.apply op y with
    | error e => rfl
    | ok z =>
      dsimp only
      unfold push
      cases rest.push z with
      | error e => rfl
      | ok stack => rfl

/-- A print offers its byte, or fails on every device. -/
lemma print_eq_onDevice (s : Stack) (out : σ) :
    print s out = (print s Buffer.unlimited).onDevice s.printed s out := by
  obtain ⟨limit, items, within⟩ := s
  match items, within with
  | [], _ => rfl
  | ⟨.integer .w8, code⟩ :: rest, _ => exact write_eq_onDevice _ _ out
  | ⟨.integer .w16, _⟩ :: _, _ | ⟨.integer .w32, _⟩ :: _, _ | ⟨.floating _, _⟩ :: _, _ => rfl

/-- An instruction has the same effect on every device that takes its chunks, and keeps the stack on
the others. -/
lemma ofInstruction_eq_onDevice (i : Instruction) (s : Stack) (out : σ) :
    ofInstruction i s out =
      (ofInstruction i s Buffer.unlimited).onDevice (i.chunks s) s out := by
  unfold ofInstruction Instruction.chunks
  cases i.opcode with
  | push =>
    cases i.operand with
    | error e => rfl
    | ok x => exact push_eq_onDevice x s out
  | assert =>
    cases i.operand with
    | error e => rfl
    | ok x => exact assert_eq_onDevice x s out
  | pop => exact pop_eq_onDevice s out
  | dump => exact write_eq_onDevice _ s out
  | binary op => exact binary_eq_onDevice op s out
  | print => exact print_eq_onDevice s out
  | exit => rfl

/-- A buffer that takes everything is left with the bytes of the chunks. -/
lemma bytes_ofInstruction (i : Instruction) (s : Stack) :
    (ofInstruction i s Buffer.unlimited).out.bytes = (i.chunks s).flatten := by
  rw [ofInstruction_eq_onDevice, onDevice, Buffer.writeAll_unlimited]
  rfl

end Effect

namespace Step

/-- The bytes that a step writes to a buffer that takes everything. -/
def output (step : Step Buffer) : List UInt8 := step.out.bytes

/-- The chunks that a step offers. They depend on the stack, which a step that offers any leaves as
it was. -/
def chunks {σ : Type} (step : Step σ) : List (List UInt8) :=
  match step.fetched with
  | some i => i.chunks step.machine.stack
  | none => []

end Step

namespace Machine

variable {σ : Type} [Sink σ] {m : Machine} {out out' : σ}

/-- A step offers the chunks of its instruction. -/
lemma chunks_step {i : Instruction} (fetched : m.source.next.result = .ok i) :
    (m.step out).chunks = i.chunks m.stack := by
  have looks (hop : i.opcode = .assert ∨ i.opcode = .dump ∨ i.opcode = .print) :
      (Effect.ofInstruction i m.stack out).stack = m.stack :=
    (Effect.outcome i m.stack out).stack_eq hop
  rw [step_of_pull_ok fetched]
  simp only [Step.chunks, Instruction.chunks]
  cases hop : i.opcode with
  | dump => rw [looks (.inr (.inl hop))]
  | print => rw [looks (.inr (.inr hop))]
  | push | pop | assert | binary | exit => rfl

/-- The bytes that a step writes are those of its chunks. -/
lemma flatten_chunks_step (m : Machine) :
    (m.step Buffer.unlimited).chunks.flatten = (m.step Buffer.unlimited).output := by
  cases h : m.source.next.result with
  | error e =>
    rw [step_of_pull_error h]
    rfl
  | ok i =>
    rw [chunks_step h, step_of_pull_ok h]
    exact (Effect.bytes_ofInstruction i m.stack).symm

/-- On a device that takes its chunks, a step does what it does on a buffer. -/
lemma step_of_taken
    (taken : Sink.writeAll out (m.step Buffer.unlimited).chunks = (none, out')) :
    m.step out =
      let step := m.step Buffer.unlimited
      ⟨step.fetched, step.machine, out', step.error, step.events⟩ := by
  cases h : m.source.next.result with
  | error e =>
    rw [step_of_pull_error h] at taken ⊢
    rw [step_of_pull_error h]
    cases taken
    rfl
  | ok i =>
    rw [chunks_step h] at taken
    rw [step_of_pull_ok h, step_of_pull_ok h, Effect.ofInstruction_eq_onDevice i m.stack out,
      Effect.onDevice, taken]

/-- On a device that never refuses, a step does what it does on a buffer, and offers the same
chunks. -/
lemma step_of_neverRefuses (willing : Sink.NeverRefuses out) (m : Machine) :
    m.step out =
      let step := m.step Buffer.unlimited
      ⟨step.fetched, step.machine, (Sink.writeAll out step.chunks).2, step.error, step.events⟩ :=
  step_of_taken (Prod.ext (willing.writeAll (m.step Buffer.unlimited).chunks).1 rfl)

/-- A buffer that takes the bytes of a step takes its chunks. -/
lemma writeAll_chunks_step (m : Machine) (out : Buffer) :
    Sink.writeAll out (m.step Buffer.unlimited).chunks =
      Sink.write out (m.step Buffer.unlimited).output := by
  rw [Buffer.writeAll_eq_write, flatten_chunks_step]

end Machine

end TypedStack
