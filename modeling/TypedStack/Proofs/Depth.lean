import TypedStack.Proofs.Atomicity
import TypedStack.Proofs.Progress

/-!
# The depth of the stack

How many operands a program has on the stack can be read off its operation codes. As long as nothing
fails, an instruction changes the size of the stack by its `gain`, so a program finds too few
operands exactly where the count says so, whatever its literals are.
-/

namespace TypedStack

namespace Opcode

/-- Whether an operation code is that of an arithmetic operation. -/
def isArithmetic : Opcode → Bool
  | binary _ => true
  | _ => false

/-- The operands that are pushed, less those that are taken. -/
def depth (ops : List Opcode) : Int := ops.count .push - (ops.count .pop + ops.countP isArithmetic)

/-- By how much an instruction that succeeds changes the number of operands. -/
def gain : Opcode → Int
  | push => 1
  | pop | binary _ => -1
  | _ => 0

/-- The instruction behind the first `k` needs more operands than these leave, and no `exit` stands
before it. -/
def ShortAt (ops : List Opcode) (k : Nat) : Prop :=
  ∃ op, ops[k]? = some op ∧ .exit ∉ ops.take k ∧ depth (ops.take k) < op.need

/-- A single instruction counts by its gain. -/
lemma depth_singleton (op : Opcode) : depth [op] = op.gain := by
  cases op <;> rfl

/-- The counts of two pieces of code add up. -/
lemma depth_append (ops ops' : List Opcode) : depth (ops ++ ops') = depth ops + depth ops' := by
  simp only [depth, List.count_append, List.countP_append]
  omega

/-- One more instruction adds its gain. -/
lemma depth_take_succ {ops : List Opcode} {op : Opcode} {k : Nat} (h : ops[k]? = some op) :
    depth (ops.take (k + 1)) = depth (ops.take k) + op.gain := by
  rw [List.take_add_one, h, depth_append]
  exact congrArg _ (depth_singleton op)

end Opcode

namespace Effect.Outcome

variable {σ : Type} [Sink σ] {i : Instruction} {s s' : Stack} {out out' : σ}

/-- An instruction that succeeds changes the size by its gain. -/
lemma size_of_ok (outcome : Outcome i s out s' out' none) :
    (s'.size : Int) = s.size + i.opcode.gain := by
  cases outcome with
  | pushed room hop => simp [hop, Opcode.gain]
  | popped hop items =>
    have one : 1 ≤ s.size := by simp [Stack.size, items]
    simp only [hop, Opcode.gain, Stack.size_drop]
    omega
  | combined room hop items =>
    have two : 2 ≤ s.size := by simp [Stack.size, items]
    simp only [hop, Opcode.gain, Stack.size_cons, Stack.size_drop]
    omega
  | asserted hop | exited hop => simp [hop, Opcode.gain]
  | wrote writes =>
    cases writes with
    | dump hop => simp [hop, Opcode.gain]
    | print hop => simp [hop, Opcode.gain]

/-- Only an instruction that finds too few operands says so. -/
lemma of_stackUnderflow {op : Opcode} {required found : Nat}
    (outcome : Outcome i s out s' out' (some (.stackUnderflow op required found))) :
    s.size < i.opcode.need := by
  cases outcome with
  | underflow few => exact few
  | unreadable _ he =>
    rcases Instruction.operand_error he with he | ⟨kind, text, he⟩
    · cases he
    · cases he
  | faulted _ _ he =>
    obtain ⟨fault, he⟩ := Operand.apply_error he
    cases fault <;> cases he

end Effect.Outcome

namespace Machine

variable {σ τ : Type} [Sink σ] [Sink τ] {is : List Instruction} {m : Machine} {out out' : σ}
  {k : Nat}

/-- An instruction has its operation code at the same place. -/
lemma getElem?_map_opcode {i : Instruction} (hi : is[k]? = some i) :
    (is.map (·.opcode))[k]? = some i.opcode := by
  rw [List.getElem?_map, hi]
  rfl

/-- Where a run stands, the stack is as deep as the operation codes say. -/
lemma size_of_advance (h : advance k (start (.program (.ofList is)) none) out = some (m, out'))
    (running : m.halted = false) :
    (m.stack.size : Int) = Opcode.depth ((is.map (·.opcode)).take k) := by
  induction k generalizing m out' with
  | zero =>
    cases h
    rfl
  | succ k ih =>
    obtain ⟨le, -, -⟩ := program_of_advance h running
    obtain ⟨m₁, out₁, before, running₁, ok, rfl, -⟩ := exists_of_advance_succ h
    obtain ⟨-, source, -⟩ := program_of_advance before running₁
    have hi := List.getElem?_eq_getElem le
    rw [Opcode.depth_take_succ (getElem?_map_opcode hi), ← ih before running₁]
    rw [step_of_getElem? source running₁ hi] at ok ⊢
    exact (Effect.outcome_of_ok ok).size_of_ok

/-- Where a run stands, the next instruction finds too few operands exactly if the operation codes
say so. -/
lemma underflow_iff_of_advance {i : Instruction}
    (h : advance k (start (.program (.ofList is)) none) out = some (m, out'))
    (running : m.halted = false) (hi : is[k]? = some i) :
    (∃ op required found, (m.step out').error = some (.stackUnderflow op required found)) ↔
      Opcode.depth ((is.map (·.opcode)).take k) < i.opcode.need := by
  obtain ⟨-, source, -⟩ := program_of_advance h running
  rw [← size_of_advance h running, Int.ofNat_lt, step_of_getElem? source running hi]
  constructor
  · rintro ⟨op, required, found, failed⟩
    exact (Effect.outcome_of_error failed).of_stackUnderflow
  · intro few
    exact ⟨_, _, _, (Effect.underflow_of_few few).1⟩

/-- An instruction that is short of operands is where the run fails, with what is there. -/
lemma failure_of_short {i : Instruction}
    (h : advance k (start (.program (.ofList is)) none) out = some (m, out'))
    (running : m.halted = false) (hi : is[k]? = some i)
    (short : Opcode.depth ((is.map (·.opcode)).take k) < i.opcode.need) :
    ((start (.program (.ofList is)) none).drive out).failure =
      some ⟨k + 1, .stackUnderflow i.opcode i.opcode.need
        (Opcode.depth ((is.map (·.opcode)).take k)).toNat⟩ := by
  obtain ⟨-, source, -⟩ := program_of_advance h running
  have size := size_of_advance h running
  rw [← size, Int.ofNat_lt] at short
  have step := step_of_getElem? source running hi out'
  have failed : (m.step out').error =
      some (.stackUnderflow i.opcode i.opcode.need m.stack.size) := by
    rw [step]
    exact (Effect.underflow_of_few short).1
  rw [failure_drive_of_advance h running failed, step, ← size, Int.toNat_natCast, Nat.zero_add]
  rfl

/-- An instruction that is short of operands lets no run get past it. -/
lemma failure_of_shortAt (short : Opcode.ShortAt (is.map (·.opcode)) k) (out : σ) :
    ∃ failure, ((start (.program (.ofList is)) none).drive out).failure = some failure ∧
      failure.line ≤ k + 1 := by
  obtain ⟨op, hop, noExit, short⟩ := short
  rw [List.getElem?_map] at hop
  obtain ⟨i, hi, rfl⟩ := Option.map_eq_some_iff.mp hop
  obtain ⟨lt, -⟩ := List.getElem?_eq_some_iff.mp hi
  rw [← List.map_take] at noExit
  have goesOn :=
    advance_or_failure (start (.program (.ofList is)) none) rfl rfl out (Nat.le_of_lt lt) noExit
  rcases goesOn with ⟨m, out', h, running⟩ | ⟨failure, failed, le⟩
  · exact ⟨_, failure_of_short h running hi short, Nat.le_refl _⟩
  · exact ⟨failure, failed, Nat.le_succ_of_le le⟩

/-- A run that finds too few operands does so at an instruction that is short of them. -/
lemma shortAt_of_failure {line required found : Nat} {op : Opcode}
    (failed : ((start (.program (.ofList is)) none).drive out).failure =
      some ⟨line, .stackUnderflow op required found⟩) :
    ∃ k, Opcode.ShortAt (is.map (·.opcode)) k := by
  obtain ⟨k, m, out', h, running, failed⟩ := exists_advance_of_failure failed
  obtain ⟨e, he, failure⟩ := Option.map_eq_some_iff.mp failed
  cases failure
  obtain ⟨-, source, noExit⟩ := program_of_advance h running
  rw [List.map_take] at noExit
  cases hi : is[k]? with
  | some i =>
    refine ⟨k, i.opcode, getElem?_map_opcode hi, noExit, ?_⟩
    exact (underflow_iff_of_advance h running hi).mp ⟨op, required, found, he⟩
  | none =>
    -- behind the last instruction stands an `exit`, which needs nothing
    rw [List.drop_eq_nil_of_le (List.getElem?_eq_none_iff.mp hi)] at source
    have exits : m.source.next.result = .ok .exit := by rw [source]; rfl
    rw [step_of_pull_ok exits] at he
    cases he

/-- In the first run of a program on a machine without a limit, the stack is as deep as the
operation codes say, wherever the run stands. The next instruction finds too few operands exactly if
it needs more than that, and the run then fails at its line and names its operation, what it needs
and what is there. So a program of which no instruction is short of operands never fails in that
way, whatever its literals are; and if one is, the run fails there or before. -/
theorem run_underflow_iff_short (is : List Instruction) (out : σ) (err : τ) :
    let m₀ := start (.program (.ofList is)) none
    let ops := is.map (·.opcode)
    (∀ k m out', advance k m₀ out = some (m, out') → m.halted = false →
      (m.stack.size : Int) = Opcode.depth (ops.take k) ∧
      ∀ i, is[k]? = some i →
        ((∃ op required found, (m.step out').error = some (.stackUnderflow op required found)) ↔
          Opcode.depth (ops.take k) < i.opcode.need) ∧
        (Opcode.depth (ops.take k) < i.opcode.need → (m₀.run out err).1.failure =
          some ⟨k + 1, .stackUnderflow i.opcode i.opcode.need (Opcode.depth (ops.take k)).toNat⟩)) ∧
    ((∀ k, ¬ Opcode.ShortAt ops k) → ∀ line op required found,
      (m₀.run out err).1.failure ≠ some ⟨line, .stackUnderflow op required found⟩) ∧
    (∀ k, Opcode.ShortAt ops k →
      ∃ failure, (m₀.run out err).1.failure = some failure ∧ failure.line ≤ k + 1) := by
  intro m₀ ops
  refine ⟨fun k m out' h running => ⟨size_of_advance h running, fun i hi => ⟨?_, fun short => ?_⟩⟩,
    fun never line op required found failed => ?_, fun k short => ?_⟩
  · exact underflow_iff_of_advance h running hi
  · exact failure_run_of_drive (failure_of_short h running hi short) err
  · rcases failure_drive_of_run failed with failed | ⟨reason, he⟩
    · obtain ⟨k, short⟩ := shortAt_of_failure failed
      exact never k short
    · -- a refusal to flush is no underflow
      cases he
  · obtain ⟨failure, failed, le⟩ := failure_of_shortAt short out
    exact ⟨failure, failure_run_of_drive failed err, le⟩

end Machine

end TypedStack
