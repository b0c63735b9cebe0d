import TypedStack.Proofs.Outcome
import TypedStack.Proofs.Progress

/-!
# Operands below

Code that does not dump the stack never looks below the operands it uses. Operands that are put
under the stack, together with as much more room, stay where they are and change nothing else,
unless the code runs into the bottom or the limit.
-/

namespace TypedStack

/-- Whether an error tells how many operands there are, or may be. -/
def Error.isOfSize : Error → Bool
  | stackUnderflow .. | stackOverflow _ | assertionFailed _ none => true
  | _ => false

/-- The stack with `t` below it, and as much more room. -/
def Stack.above (s : Stack) (t : List Operand) : Stack where
  limit := s.limit.map (· + t.length)
  items := s.items ++ t
  within n hn := by
    obtain ⟨n, limit, rfl⟩ := Option.map_eq_some_iff.mp hn
    rw [List.length_append]
    exact Nat.add_le_add_right (s.within n limit) t.length

/-- The effect with `t` below the stack it leaves. -/
def Effect.above {σ : Type} (effect : Effect σ) (t : List Operand) : Effect σ :=
  { effect with stack := effect.stack.above t }

/-- The machine with `t` below its stack. -/
def Machine.above (m : Machine) (t : List Operand) : Machine := { m with stack := m.stack.above t }

/-- The run with `t` below the stack it leaves. -/
def Run.above {σ : Type} (run : Run σ) (t : List Operand) : Run σ :=
  { run with machine := run.machine.above t }

/-- Where there is room, there is room above other operands. -/
lemma Stack.hasRoom_above {s : Stack} (t : List Operand) (room : s.HasRoom) :
    (s.above t).HasRoom := by
  intro n hn
  obtain ⟨n, hlimit, rfl⟩ := Option.map_eq_some_iff.mp hn
  rw [size, above, List.length_append]
  exact Nat.add_lt_add_right (room n hlimit) t.length

namespace Effect

variable {σ : Type} {i : Instruction} {s : Stack} {out : σ}

/-- The effect is no failure for the size of the stack. -/
def FitsSize (effect : Effect σ) : Prop := ∀ e, effect.error = some e → e.isOfSize = false

/-- A push that finds room leaves what is below. -/
lemma push_above (x : Operand) (t : List Operand) (fits : (push x s out).FitsSize) :
    push x (s.above t) out = (push x s out).above t := by
  rcases s.hasRoom_or_full with room | ⟨n, hn, full⟩
  · simp only [push, Stack.push_of_hasRoom room, Stack.push_of_hasRoom (Stack.hasRoom_above t room)]
    rfl
  · simp only [push, Stack.push_of_full hn full] at fits
    cases fits _ rfl

/-- A pop that finds an operand leaves what is below. -/
lemma pop_above (t : List Operand) (fits : (pop s out).FitsSize) :
    pop (s.above t) out = (pop s out).above t := by
  obtain ⟨limit, items, within⟩ := s
  cases items with
  | nil => cases fits _ rfl
  | cons x rest => rfl

/-- An assertion that finds an operand does not look below it. -/
lemma assert_above (x : Operand) (t : List Operand) (fits : (assert x s out).FitsSize) :
    assert x (s.above t) out = (assert x s out).above t := by
  cases items : s.items with
  | nil =>
    have top : s.top? = none := by rw [Stack.top?, items]; rfl
    simp only [assert, top] at fits
    cases fits _ rfl
  | cons y rest =>
    have top : (s.above t).top? = s.top? := by simp [Stack.top?, Stack.above, items]
    simp only [assert, top]
    by_cases holds : s.top?.map Operand.text = some x.text
    · simp only [if_pos holds]
      rfl
    · simp only [if_neg holds]
      rfl

/-- Arithmetic that finds its operands leaves what is below. -/
lemma binary_above (op : BinaryOp) (t : List Operand) (fits : (binary op s out).FitsSize) :
    binary op (s.above t) out = (binary op s out).above t := by
  rcases s.size_lt_two_or_pair with few | ⟨y, x, rest, items⟩
  · rw [binary_of_few few] at fits
    cases fits _ rfl
  · have below : (s.above t).items = y :: x :: (rest ++ t) := by simp [Stack.above, items]
    have taken : (s.above t).drop 2 = (s.drop 2).above t :=
      Stack.ext rfl (by simp [Stack.drop, Stack.above, items])
    cases happly : x.apply op y with
    | error e =>
      rw [binary_of_error below happly, binary_of_error items happly, taken]
      rfl
    | ok z =>
      rw [binary_of_ok items happly] at fits ⊢
      rw [binary_of_ok below happly, taken]
      exact congrArg (record _) (push_above z t fits)

variable [Sink σ]

/-- Writing chunks does not look at the stack. -/
lemma write_above (chunks : List (List UInt8)) (t : List Operand) :
    write chunks (s.above t) out = (write chunks s out).above t := by
  rw [write, write]
  split <;> rfl

/-- A print that finds an operand does not look below it. -/
lemma print_above (t : List Operand) (fits : (print s out).FitsSize) :
    print (s.above t) out = (print s out).above t := by
  obtain ⟨limit, items, within⟩ := s
  match items, within with
  | [], _ => cases fits _ rfl
  | ⟨.integer .w8, code⟩ :: rest, _ => exact write_above _ t
  | ⟨.integer .w16, _⟩ :: _, _ | ⟨.integer .w32, _⟩ :: _, _ | ⟨.floating _, _⟩ :: _, _ => rfl

/-- Only a dump looks below the operands it uses. -/
lemma ofInstruction_above (hop : i.opcode ≠ .dump) (t : List Operand)
    (fits : (ofInstruction i s out).FitsSize) :
    ofInstruction i (s.above t) out = (ofInstruction i s out).above t := by
  cases h : i.opcode with
  | dump => exact absurd h hop
  | push =>
    simp only [ofInstruction, h] at fits ⊢
    cases hx : i.operand with
    | error e => rfl
    | ok x =>
      rw [hx] at fits
      exact push_above x t fits
  | assert =>
    simp only [ofInstruction, h] at fits ⊢
    cases hx : i.operand with
    | error e => rfl
    | ok x =>
      rw [hx] at fits
      exact assert_above x t fits
  | pop =>
    simp only [ofInstruction, h] at fits ⊢
    exact pop_above t fits
  | binary op =>
    simp only [ofInstruction, h] at fits ⊢
    exact binary_above op t fits
  | print =>
    simp only [ofInstruction, h] at fits ⊢
    exact print_above t fits
  | exit =>
    simp only [ofInstruction, h]
    rfl

end Effect

namespace Machine

variable {σ τ : Type} [Sink σ] [Sink τ] {out : σ} {is : List Instruction} {line : Nat} {s : Stack}

/-- What is below stays there while code runs, as long as the code does not fail for the size of the
stack. -/
lemma quiet_drive_above (noDump : ∀ i ∈ is, i.opcode ≠ .dump) (t : List Operand)
    (fits : ∀ failure, (drive ⟨.program ⟨is, line⟩, s, false⟩ out).failure = some failure →
      failure.error.isOfSize = false) :
    (drive ⟨.program ⟨is, line⟩, s.above t, false⟩ out).quiet =
      (drive ⟨.program ⟨is, line⟩, s, false⟩ out).quiet.above t := by
  induction is generalizing line s out with
  | nil =>
    rw [quiet_drive_program_nil, quiet_drive_program_nil]
    rfl
  | cons i is ih =>
    have hop := noDump i List.mem_cons_self
    have noDump : ∀ i ∈ is, i.opcode ≠ .dump := fun i hi => noDump i (List.mem_cons_of_mem _ hi)
    have fitsEffect : (Effect.ofInstruction i s out).FitsSize := by
      intro e he
      exact fits ⟨line + 1, e⟩ (congrArg Run.failure (quiet_drive_program_of_error rfl he))
    have effect := Effect.ofInstruction_above hop t fitsEffect
    cases he : (Effect.ofInstruction i s out).error with
    | some e =>
      rw [quiet_drive_program_of_error effect he, quiet_drive_program_of_error rfl he]
      rfl
    | none =>
      by_cases exits : i.opcode = .exit
      · rw [quiet_drive_program_of_exit exits, quiet_drive_program_of_exit exits]
        rfl
      · have goesOn : (drive ⟨.program ⟨i :: is, line⟩, s, false⟩ out).quiet = _ :=
          quiet_drive_program_of_ok exits rfl he
        rw [quiet_drive_program_of_ok exits effect he, goesOn]
        -- a failure of the rest is one of the whole, so it is not for the size either
        refine ih noDump fun failure failed => fits failure ?_
        exact (congrArg Run.failure goesOn).trans failed

/-- Closing a run does not look at the stack. -/
lemma close_above (t : List Operand) (run : Run σ) (err : τ) :
    (run.above t).close err = Prod.map (Run.above · t) id (run.close err) := rfl

/-- Code without a dump, run with operands `t` below the stack and as much more room, does what it
does without them: it ends in the same way and at the same instruction, with the same output and
report, and leaves `t` below the stack that it leaves without them. Only a failure for the size of
the stack is excepted: too few operands, none to compare, or too many. -/
theorem run_above (is : List Instruction) (noDump : ∀ i ∈ is, i.opcode ≠ .dump) (s : Stack)
    (t : List Operand) (out : σ) (err : τ) :
    let m : Machine := ⟨.program (.ofList is), s, false⟩
    let below : Machine := ⟨.program (.ofList is), s.above t, false⟩
    (∀ failure, (m.run out err).1.failure = some failure → failure.error.isOfSize = false) →
      below.quietRun out err = Prod.map (Run.above · t) id (m.quietRun out err) := by
  intro m below fits
  have drive : (below.drive out).quiet = (m.drive out).quiet.above t :=
    quiet_drive_above noDump t fun failure failed => fits failure (failure_run_of_drive failed err)
  rw [quietRun_eq_close, quietRun_eq_close, drive]
  exact close_above t (m.drive out).quiet err

/-- Above one operand and with room for one more, a division by zero fails as it does on its own,
and the operand stays. -/
theorem run_above_of_division_by_zero :
    let is : List Instruction := [⟨.push, some ⟨.int8, "0"⟩⟩, ⟨.binary .div, none⟩]
    let s : Stack := ⟨some 2, [⟨.int8, 7#8⟩], by decide⟩
    let t : Stack := ⟨some 3, [⟨.int8, 7#8⟩, ⟨.int16, 65#16⟩], by decide⟩
    let m : Machine := ⟨.program (.ofList is), s, false⟩
    let below : Machine := ⟨.program (.ofList is), t, false⟩
    let out := Buffer.unlimited
    (∀ i ∈ is, i.opcode ≠ .dump) ∧ (m.run out out).1.failure = some ⟨2, .divisionByZero .div⟩ ∧
      (below.run out out).1.failure = some ⟨2, .divisionByZero .div⟩ ∧
      (below.run out out).1.machine.stack = ⟨some 3, [⟨.int16, 65#16⟩], by decide⟩ := by
  intro is s t m below out
  have noDump : ∀ i ∈ is, i.opcode ≠ .dump := by decide
  have drive : (m.drive out).quiet =
      ⟨⟨.program ⟨[], 2⟩, .empty (some 2), false⟩, out, some ⟨2, .divisionByZero .div⟩, []⟩ :=
    (quiet_drive_program_of_ok (by decide) rfl rfl).trans (quiet_drive_program_of_error rfl rfl)
  have failed : (m.run out out).1.failure = some ⟨2, .divisionByZero .div⟩ :=
    failure_run_of_drive (congrArg Run.failure drive) out
  have run : below.quietRun out out =
      Prod.map (Run.above · [⟨.int16, 65#16⟩]) id (m.quietRun out out) := by
    refine run_above is noDump s [⟨.int16, 65#16⟩] out out fun failure h => ?_
    cases failed.symm.trans h
    rfl
  rw [quietRun_eq_close m, drive] at run
  exact ⟨noDump, failed, congrArg (·.1.failure) run, congrArg (·.1.machine.stack) run⟩

end Machine

end TypedStack
