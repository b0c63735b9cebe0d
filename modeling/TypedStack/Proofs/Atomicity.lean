import TypedStack.Proofs.Limit

/-!
# What a failing step leaves behind

A step that fails leaves the stack as it was, unless it is an arithmetic operation that found its
two operands: those are taken before they are combined. The limit cannot make a further exception,
since there is room for a result where two operands were.
-/

namespace TypedStack

/-- The instruction is arithmetic, and finds two operands whose combination fails with `e`. -/
def Instruction.FaultsOn (i : Instruction) (s : Stack) (e : Error) : Prop :=
  ∃ op x y rest, i.opcode = .binary op ∧ s.items = y :: x :: rest ∧ x.apply op y = .error e

/-- An instruction that faults has all the operands it needs. -/
lemma Instruction.FaultsOn.need_le {i : Instruction} {s : Stack} {e : Error}
    (faults : i.FaultsOn s e) :
    i.opcode.need ≤ s.size := by
  obtain ⟨op, x, y, rest, hop, items, -⟩ := faults
  rw [hop, Stack.size, items]
  exact Nat.le_add_left 2 rest.length

/-- A fault is an overflow, an underflow or a division by zero. -/
lemma Instruction.FaultsOn.isFault {i : Instruction} {s : Stack} {e : Error}
    (faults : i.FaultsOn s e) :
    ∃ op kind, ∃ fault : Fault, i.opcode = .binary op ∧ e = fault.error op kind := by
  obtain ⟨op, x, y, rest, hop, -, he⟩ := faults
  obtain ⟨fault, he⟩ := Operand.apply_error he
  exact ⟨op, _, fault, hop, he⟩

namespace Effect.Outcome

variable {σ : Type} [Sink σ] {i : Instruction} {s s' : Stack} {out out' : σ} {error : Option Error}
  {e : Error}

/-- An instruction that fails is a fault and takes two operands, or is no fault and takes none. -/
lemma failed (outcome : Outcome i s out s' out' (some e)) :
    i.FaultsOn s e ∧ s' = s.drop 2 ∨ (∀ e', ¬ i.FaultsOn s e') ∧ s' = s := by
  have other {e'} (ne : ∀ op, i.opcode ≠ .binary op) : ¬ i.FaultsOn s e' := by
    rintro ⟨op, x, y, rest, hop, -, -⟩
    exact ne op hop
  cases outcome with
  | faulted hop items he =>
    exact .inl ⟨⟨_, _, _, _, hop, items, he⟩, rfl⟩
  | underflow few => exact .inr ⟨fun e' faults => Nat.not_lt.mpr faults.need_le few, rfl⟩
  | unreadable takes _ =>
    refine .inr ⟨fun e' => other fun op hop => ?_, rfl⟩
    rw [hop] at takes
    cases takes
  | full hop | refuted hop | notPrintable hop => exact .inr ⟨fun e' => other (by simp [hop]), rfl⟩
  | refused writes _ =>
    refine .inr ⟨fun e' => other fun op hop => ?_, rfl⟩
    cases writes with
    | dump hop' => cases hop.symm.trans hop'
    | print hop' _ => cases hop.symm.trans hop'

end Effect.Outcome

namespace Effect

variable {σ : Type} [Sink σ] {i : Instruction} {s : Stack} {out : σ} {e : Error}

/-- A fault is the error with which the instruction fails. -/
lemma error_of_faultsOn (faults : i.FaultsOn s e) : (ofInstruction i s out).error = some e := by
  obtain ⟨limit, items, within⟩ := s
  obtain ⟨op, x, y, rest, hop, rfl, he⟩ := faults
  simp only [ofInstruction, hop, binary, Stack.popPair?, he, record]
  rfl

/-- Too few operands are reported with their number, and left. -/
lemma underflow_of_few (few : s.size < i.opcode.need) :
    (ofInstruction i s out).error = some (.stackUnderflow i.opcode i.opcode.need s.size) ∧
      (ofInstruction i s out).stack = s := by
  cases hop : i.opcode with
  | pop | print =>
    obtain ⟨limit, items, within⟩ := s
    rw [hop] at few
    obtain rfl := List.length_eq_zero_iff.mp (Nat.lt_one_iff.mp few)
    simp only [ofInstruction, hop]
    exact ⟨rfl, rfl⟩
  | binary op =>
    rw [hop] at few
    simp only [ofInstruction, hop, binary_of_few few]
    exact ⟨rfl, rfl⟩
  | push | dump | assert | exit =>
    rw [hop] at few
    exact absurd few (Nat.not_lt_zero _)

end Effect

namespace Machine

variable {σ : Type} [Sink σ] {m : Machine} {out : σ} {e : Error}

/-- A step that fails by a fault takes two operands, and any other failure takes none. -/
lemma step_failed (failed : (m.step out).error = some e) :
    (∃ i, (m.step out).fetched = some i ∧ i.FaultsOn m.stack e ∧
      (m.step out).machine.stack = m.stack.drop 2) ∨
      (∀ i e', (m.step out).fetched = some i → ¬ i.FaultsOn m.stack e') ∧
        (m.step out).machine.stack = m.stack := by
  cases h : m.source.next.result with
  | error e =>
    rw [step_of_pull_error h]
    refine .inr ⟨fun i e' fetched => ?_, rfl⟩
    cases fetched
  | ok i =>
    rw [step_of_pull_ok h] at failed ⊢
    rcases (Effect.outcome_of_error failed).failed with ⟨faults, taken⟩ | ⟨noFault, same⟩
    · exact .inl ⟨i, rfl, faults, taken⟩
    · refine .inr ⟨?_, same⟩
      rintro _ e' ⟨⟩
      exact noFault e'

/-- A step that fails does not halt the machine and leaves the stack as it was, with one exception:
an arithmetic operation that finds two operands and cannot combine them has taken both. That
exception is a failure, by the fault of the combination. An operation that finds too few operands
reports how many there are and leaves them, and comparing and writing leave the stack alone whether
they fail or not. No step changes the limit. -/
theorem step_failure_atomic (m : Machine) (out : σ) :
    let step := m.step out
    (∀ e, step.error = some e → step.machine.halted = m.halted ∧
      ((∃ i, step.fetched = some i ∧ i.FaultsOn m.stack e ∧ step.machine.stack = m.stack.drop 2) ∨
        (∀ i e', step.fetched = some i → ¬ i.FaultsOn m.stack e') ∧ step.machine.stack = m.stack)) ∧
    (∀ i e, step.fetched = some i → i.FaultsOn m.stack e →
      step.error = some e ∧ ∃ op kind, ∃ fault : Fault, i.opcode = .binary op ∧
      e = fault.error op kind) ∧
    (∀ i, step.fetched = some i → m.stack.size < i.opcode.need →
      step.error = some (.stackUnderflow i.opcode i.opcode.need m.stack.size) ∧
      step.machine.stack = m.stack) ∧
    (∀ i, step.fetched = some i → i.opcode = .assert ∨ i.opcode = .dump ∨ i.opcode = .print →
      step.machine.stack = m.stack) ∧
    step.machine.stack.limit = m.stack.limit := by
  refine ⟨fun e failed => ⟨halted_step_of_error failed, step_failed failed⟩,
    fun i e fetched faults => ?_, fun i fetched few => ?_, fun i fetched hop => ?_, limit_step⟩
  · obtain ⟨-, error, -⟩ := step_of_fetched fetched
    rw [error]
    exact ⟨Effect.error_of_faultsOn faults, faults.isFault⟩
  · obtain ⟨-, error, stack⟩ := step_of_fetched fetched
    rw [error, stack]
    exact Effect.underflow_of_few few
  · obtain ⟨-, -, stack⟩ := step_of_fetched fetched
    rw [stack]
    exact (Effect.outcome i m.stack out).stack_eq hop

/-- On a full stack, a division by zero takes the divisor and the dividend, and a dump that is cut
off after two bytes takes nothing. -/
theorem step_failure_atomic_full :
    let s : Stack := ⟨some 3, [⟨.int8, 0#8⟩, ⟨.int8, 1#8⟩, ⟨.int8, 5#8⟩], by decide⟩
    let divides : Machine := ⟨.program (.ofList [⟨.binary .div, none⟩]), s, false⟩
    let dumps : Machine := ⟨.program (.ofList [⟨.dump, none⟩]), s, false⟩
    let out := Buffer.limited 2 "sink full"
    (divides.step out).error = some (.divisionByZero .div) ∧
    (divides.step out).machine.stack.items = [⟨.int8, 5#8⟩] ∧
    (dumps.step out).error = some (.device "sink full") ∧
    (dumps.step out).out.bytes = [48, 10] ∧
    (dumps.step out).machine.stack = s := by
  intro s divides dumps out
  have faults : (⟨.binary .div, none⟩ : Instruction).FaultsOn s (.divisionByZero .div) :=
    ⟨.div, _, _, _, rfl, rfl, rfl⟩
  obtain ⟨division, fault, -⟩ := step_failure_atomic divides out
  obtain ⟨-, -, -, look, -⟩ := step_failure_atomic dumps out
  have failed := (fault _ _ rfl faults).1
  refine ⟨failed, ?_, by decide +kernel, by decide +kernel, look _ rfl (.inr (.inl rfl))⟩
  rcases (division _ failed).2 with ⟨_, _, _, taken⟩ | ⟨noFault, _⟩
  · rw [taken]
    rfl
  · exact absurd faults (noFault _ _ rfl)

end Machine

end TypedStack
