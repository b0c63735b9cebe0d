import TypedStack.Machine.Effect
import TypedStack.Source.Basic

/-!
# The machine

A machine holds a source of instructions and a stack. A step pulls one instruction and performs it;
`exit` halts the machine.
-/

namespace TypedStack

/-- The state of a machine. -/
structure Machine where
  source : Source
  stack : Stack
  halted : Bool
deriving DecidableEq, Repr

/-- What one step did: the instruction it pulled, if it got one, the machine and output afterwards,
the error with which it failed, and what was recorded. -/
structure Step (σ : Type) where
  fetched : Option Instruction
  machine : Machine
  out : σ
  error : Option Error
  events : List Event

namespace Machine

/-- A machine at the start of a source. -/
def start (source : Source) (limit : Option Nat) : Machine := ⟨source, .empty limit, false⟩

/-- The number of the line that was read last. -/
def line (m : Machine) : Nat := m.source.line

variable {σ : Type} [Sink σ]

/-- Pulls one instruction and performs it. -/
def step (m : Machine) (out : σ) : Step σ :=
  let pull := m.source.next
  match pull.result with
  | .error e => ⟨none, { m with source := pull.source }, out, some e, pull.events⟩
  | .ok i =>
    let effect := Effect.ofInstruction i m.stack out
    let dispatch := .dispatch pull.source.line i.opcode m.stack.size
    ⟨some i, ⟨pull.source, effect.stack, m.halted || i.opcode == .exit⟩, effect.out, effect.error,
      pull.events ++ dispatch :: effect.events⟩

/-- A bound on the steps that succeed before the machine halts. -/
def remaining (m : Machine) : Nat := if m.halted then 0 else m.source.remaining + 1

/-- Every successful step brings the end nearer. -/
theorem remaining_step_lt {m : Machine} {out : σ} (running : ¬ m.halted)
    (ok : (m.step out).error = none) :
    (m.step out).machine.remaining < m.remaining := by
  cases hp : m.source.next.result with
  | error e => simp [step, hp] at ok
  | ok i =>
    simp only [step, hp, remaining, running]
    by_cases hop : i.opcode = .exit
    · simp [hop]
    · have := Source.remaining_next_lt hp hop
      simp [hop, this]

end Machine

end TypedStack
