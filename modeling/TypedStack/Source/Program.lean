import TypedStack.Log

/-!
# Programs in memory

What a source of instructions answers when it is asked for the next one, and the simplest source: a
program is a list of instructions, whose lines are numbered from one, one instruction each.
-/

namespace TypedStack

/-- The answer of a source of type `α`: an instruction or an error, the source afterwards, and what
it recorded. -/
structure Pull (α : Type) where
  result : Except Error Instruction
  source : α
  events : List Event

/-- The same answer from a source seen as another one. -/
def Pull.map {α β : Type} (f : α → β) (pull : Pull α) : Pull β :=
  ⟨pull.result, f pull.source, pull.events⟩

/-- The instructions that are left of a program, and the number of those already pulled. -/
structure Program where
  rest : List Instruction
  line : Nat
deriving DecidableEq, Repr

namespace Program

/-- A program from its start. -/
def ofList (instructions : List Instruction) : Program := ⟨instructions, 0⟩

/-- Pulls the next instruction. Behind the last one stands `exit`, at the line of the last one. -/
def next (p : Program) : Pull Program :=
  match p.rest with
  | [] => ⟨.ok .exit, p, []⟩
  | i :: rest => ⟨.ok i, ⟨rest, p.line + 1⟩, []⟩

end Program

end TypedStack
