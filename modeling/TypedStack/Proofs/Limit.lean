import TypedStack.Proofs.Execution
import TypedStack.Proofs.Outcome
import TypedStack.Proofs.Parsing

/-!
# The stack limit

No stack holds more operands than its limit, and only a push can meet the limit. An arithmetic
operation pushes its result through the same check, but has taken two operands before.
-/

namespace TypedStack

/-- A stack holds at most as many operands as its limit allows. -/
lemma Stack.size_le {s : Stack} {n : Nat} (limit : s.limit = some n) : s.size ≤ n :=
  s.within n limit

/-- An overflow is that of a push onto a full stack, which stays as it was. -/
lemma Effect.Outcome.of_stackOverflow {σ : Type} [Sink σ] {i : Instruction} {s s' : Stack}
    {out out' : σ} {n : Nat} (outcome : Outcome i s out s' out' (some (.stackOverflow n))) :
    i.opcode = .push ∧ (∃ x, i.operand = .ok x) ∧ s.limit = some n ∧ s.size = n ∧ s' = s := by
  cases outcome with
  | full hop hx hn full =>
    exact ⟨hop, ⟨_, hx⟩, hn, Nat.le_antisymm (s.size_le hn) full, rfl⟩
  | unreadable _ he =>
    rcases Instruction.operand_error he with he | ⟨kind, text, he⟩
    · cases he
    · cases he
  | faulted _ _ he =>
    obtain ⟨fault, he⟩ := Operand.apply_error he
    cases fault <;> cases he

namespace Machine

variable {σ τ : Type} [Sink σ] [Sink τ] {m : Machine} {out : σ} {n : Nat}

/-- No step changes the limit. -/
lemma limit_step : (m.step out).machine.stack.limit = m.stack.limit := by
  cases h : m.source.next.result with
  | error e => rw [step_of_pull_error h]
  | ok i =>
    rw [step_of_pull_ok h]
    exact (Effect.outcome i m.stack out).limit_eq

/-- A machine keeps the limit with which it started. -/
lemma Reachable.limit_eq {m₀ : Machine} (reached : Reachable m₀ m) :
    m.stack.limit = m₀.stack.limit := by
  induction reached with
  | refl => rfl
  | step out _ _ ih => exact limit_step.trans ih

/-- A push with an operand onto a full stack overflows. -/
lemma step_push_of_full {i : Instruction} {x : Operand} (limit : m.stack.limit = some n)
    (full : m.stack.size = n) (fetched : (m.step out).fetched = some i) (hop : i.opcode = .push)
    (hx : i.operand = .ok x) :
    (m.step out).error = some (.stackOverflow n) := by
  cases h : m.source.next.result with
  | error e =>
    rw [step_of_pull_error h] at fetched
    cases fetched
  | ok i' =>
    rw [step_of_pull_ok h] at fetched ⊢
    cases fetched
    simp only [Effect.ofInstruction, hop, hx, Effect.push,
      Stack.push_of_full limit (Nat.le_of_eq full.symm)]
    rfl

/-- A step that overflows has fetched a push with an operand, at the limit, and leaves the stack as
it was. -/
lemma step_stackOverflow (he : (m.step out).error = some (.stackOverflow n)) :
    (∃ i x, (m.step out).fetched = some i ∧ i.opcode = .push ∧ i.operand = .ok x) ∧
      m.stack.limit = some n ∧ m.stack.size = n ∧ (m.step out).machine.stack = m.stack := by
  cases h : m.source.next.result with
  | error e =>
    rw [step_of_pull_error h] at he
    cases he
    cases Source.isOfReading_of_next h
  | ok i =>
    rw [step_of_pull_ok h] at he ⊢
    obtain ⟨hop, ⟨x, hx⟩, limit, full, same⟩ := (Effect.outcome_of_error he).of_stackOverflow
    exact ⟨⟨i, x, rfl, hop, hx⟩, limit, full, same⟩

/-- In every machine that is reached from a fresh one with the limit `n`, the stack holds at most
`n` operands. A step overflows exactly if it is a push with an operand and the stack holds `n`; it
then names `n` and keeps the stack. Arithmetic never overflows the stack. Runs reach no other
machines, however often they fail and are resumed. -/
theorem reachable_limit (source : Source) (n : Nat) {m : Machine}
    (reached : Reachable (start source (some n)) m) (out : σ) (err : τ) :
    m.stack.size ≤ n ∧
    (∀ limit, (m.step out).error = some (.stackOverflow limit) ↔
      limit = n ∧ m.stack.size = n ∧
        ∃ i x, (m.step out).fetched = some i ∧ i.opcode = .push ∧ i.operand = .ok x) ∧
    (∀ limit, (m.step out).error = some (.stackOverflow limit) →
      (m.step out).machine.stack = m.stack) ∧
    (∀ i op limit, (m.step out).fetched = some i → i.opcode = .binary op →
      (m.step out).error ≠ some (.stackOverflow limit)) ∧
    ∀ count, ∀ result ∈ m.runs count out err,
      Reachable (start source (some n)) result.1.machine := by
  have hn : m.stack.limit = some n := reached.limit_eq
  refine ⟨m.stack.size_le hn, fun limit => ⟨fun he => ?_, ?_⟩, fun limit he => ?_,
    fun i op limit fetched hop he => ?_, ?_⟩
  · obtain ⟨push, hlimit, full, -⟩ := step_stackOverflow he
    cases hn.symm.trans hlimit
    exact ⟨rfl, full, push⟩
  · rintro ⟨rfl, full, i, x, fetched, hop, hx⟩
    exact step_push_of_full hn full fetched hop hx
  · exact (step_stackOverflow he).2.2.2
  · obtain ⟨⟨i', x, fetched', hop', -⟩, -⟩ := step_stackOverflow he
    cases fetched.symm.trans fetched'
    cases hop.symm.trans hop'
  · exact fun count => reached.runs count out err

/-- With the limit 2, an addition on a full stack succeeds and the second push behind it
overflows. -/
theorem reachable_limit_two :
    let pushes := fun text => (⟨.push, some ⟨.int8, text⟩⟩ : Instruction)
    let next := fun m : Machine => (m.step Buffer.unlimited).machine
    let full := next (next (start
      (.program (.ofList [pushes "1", pushes "2", ⟨.binary .add, none⟩, pushes "4", pushes "5"]))
      (some 2)))
    full.stack.size = 2 ∧ (full.step Buffer.unlimited).error = none ∧
      ((next (next full)).step Buffer.unlimited).error = some (.stackOverflow 2) := by
  intro pushes next full
  have reached : Reachable (start _ (some 2)) (next (next full)) :=
    (((Reachable.refl.step _ rfl).step _ rfl).step _ rfl).step _ rfl
  have limited := reachable_limit _ 2 reached Buffer.unlimited Buffer.unlimited
  refine ⟨by decide +kernel, by decide +kernel, (limited.2.1 2).mpr ⟨rfl, by decide +kernel, ?_⟩⟩
  exact ⟨pushes "5", ⟨.int8, 5#8⟩, rfl, rfl, rfl⟩

end Machine

end TypedStack
