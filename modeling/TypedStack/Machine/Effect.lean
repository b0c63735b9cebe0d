import TypedStack.Log
import TypedStack.Sink
import TypedStack.Stack
import TypedStack.Text.Basic

/-!
# Effects of instructions

What each instruction does to the stack and the output. A failing instruction leaves the stack as it
was, except that an arithmetic operation has already taken its operands.
-/

namespace TypedStack

/-- The stack and output after an instruction, the error with which it failed, and what was
recorded. -/
structure Effect (σ : Type) where
  stack : Stack
  out : σ
  error : Option Error
  events : List Event

namespace Effect

variable {σ : Type}

/-- An instruction that succeeded. -/
def done (stack : Stack) (out : σ) : Effect σ := ⟨stack, out, none, []⟩

/-- An instruction that failed. -/
def failed (stack : Stack) (out : σ) (error : Error) : Effect σ := ⟨stack, out, some error, []⟩

/-- The same effect after a record. -/
def record (event : Event) (effect : Effect σ) : Effect σ :=
  { effect with events := event :: effect.events }

/-- Puts an operand on the stack. -/
def push (x : Operand) (stack : Stack) (out : σ) : Effect σ :=
  match stack.push x with
  | .ok stack => done stack out
  | .error e => failed stack out e

/-- Takes the top off the stack. -/
def pop (stack : Stack) (out : σ) : Effect σ :=
  match stack.pop? with
  | some (_, stack) => done stack out
  | none => failed stack out (.stackUnderflow .pop 1 stack.size)

/-- Compares the top of the stack with an operand, by their texts. -/
def assert (expected : Operand) (stack : Stack) (out : σ) : Effect σ :=
  let actual := stack.top?.map Operand.text
  if actual = some expected.text then done stack out
  else failed stack out (.assertionFailed expected.text actual)

/-- Replaces the two operands on top by the result of an operation; the deeper one is its left
operand. -/
def binary (op : BinaryOp) (stack : Stack) (out : σ) : Effect σ :=
  match stack.popPair? with
  | none => failed stack out (.stackUnderflow (.binary op) 2 stack.size)
  | some (right, left, stack) =>
    record (.arithmetic op (left.kind.promote right.kind) left right) <|
      match left.apply op right with
      | .ok x => push x stack out
      | .error e => failed stack out e

variable [Sink σ]

/-- Writes chunks and keeps the stack. -/
def write (chunks : List (List UInt8)) (stack : Stack) (out : σ) : Effect σ :=
  match Sink.writeAll out chunks with
  | (none, out) => done stack out
  | (some reason, out) => failed stack out (.device reason)

/-- Writes the texts of all operands from the top down, a line each. -/
def dump (stack : Stack) (out : σ) : Effect σ :=
  write (stack.items.map fun x => Text.encode (x.text ++ "\n")) stack out

/-- Writes the top of the stack as one byte. -/
def print (stack : Stack) (out : σ) : Effect σ :=
  match stack.top? with
  | none => failed stack out (.stackUnderflow .print 1 stack.size)
  | some ⟨.int8, code⟩ => write [[UInt8.ofBitVec code]] stack out
  | some x => failed stack out (.notPrintable x.kind)

/-- The effect of an instruction. -/
def ofInstruction (i : Instruction) (stack : Stack) (out : σ) : Effect σ :=
  let withOperand (act : Operand → Stack → σ → Effect σ) : Effect σ :=
    match i.operand with
    | .ok x => act x stack out
    | .error e => failed stack out e
  match i.opcode with
  | .push => withOperand push
  | .assert => withOperand assert
  | .pop => pop stack out
  | .dump => dump stack out
  | .binary op => binary op stack out
  | .print => print stack out
  | .exit => done stack out

end Effect

end TypedStack
