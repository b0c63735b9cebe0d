/-!
# Operation codes

What an instruction does, apart from the literal it may carry.
-/

namespace TypedStack

/-- The arithmetic operations on two numbers. -/
inductive BinaryOp where
  | add
  | sub
  | mul
  | div
  | mod
deriving DecidableEq, Repr

/-- The name of an arithmetic operation in programs and messages. -/
def BinaryOp.name : BinaryOp → String
  | .add => "add"
  | .sub => "sub"
  | .mul => "mul"
  | .div => "div"
  | .mod => "mod"

/-- The operation codes of the machine. -/
inductive Opcode where
  | push
  | pop
  | dump
  | assert
  | binary (op : BinaryOp)
  | print
  | exit
deriving DecidableEq, Repr

namespace Opcode

/-- All operation codes. -/
def all : List Opcode :=
  [push, pop, dump, assert, binary .add, binary .sub, binary .mul, binary .div, binary .mod, print,
    exit]

/-- How an operation code is written in a program. -/
def mnemonic : Opcode → String
  | push => "push"
  | pop => "pop"
  | dump => "dump"
  | assert => "assert"
  | binary op => op.name
  | print => "print"
  | exit => "exit"

/-- The operation code that a mnemonic stands for; mnemonics are case-sensitive. -/
def ofMnemonic? (mnemonic : String) : Option Opcode := all.find? (·.mnemonic == mnemonic)

/-- An opcode is found again by its mnemonic. -/
@[simp] theorem ofMnemonic?_mnemonic (op : Opcode) : ofMnemonic? op.mnemonic = some op := by
  rcases op with _ | _ | _ | _ | ⟨_ | _ | _ | _ | _⟩ | _ | _ <;> rfl

/-- Only the mnemonic of an opcode is read as that opcode. -/
theorem mnemonic_of_ofMnemonic? {mnemonic : String} {op : Opcode}
    (h : ofMnemonic? mnemonic = some op) :
    op.mnemonic = mnemonic := by
  simpa using List.find?_some h

/-- Whether a written instruction with this operation code carries a literal. -/
def takesLiteral : Opcode → Bool
  | push | assert => true
  | _ => false

end Opcode

end TypedStack
