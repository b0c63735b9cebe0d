import TypedStack.Operand

/-!
# Instructions

An operation code with the literal it may carry. Nothing is checked when an instruction is made: a
literal may be missing, superfluous or unreadable, and the machine finds out when it performs the
instruction.
-/

namespace TypedStack

/-- A kind with the text of a number of that kind. -/
structure Literal where
  kind : Kind
  text : String
deriving DecidableEq, Repr

/-- The operand that a literal stands for. -/
def Literal.operand (literal : Literal) : Except Error Operand :=
  Operand.read literal.kind literal.text

/-- One instruction of a program. -/
structure Instruction where
  opcode : Opcode
  literal : Option Literal
deriving DecidableEq, Repr

namespace Instruction

/-- The instruction that ends a program. -/
def exit : Instruction := ⟨.exit, none⟩

/-- The operand that an instruction carries. -/
def operand (i : Instruction) : Except Error Operand :=
  match i.literal with
  | some literal => literal.operand
  | none => .error (.missingLiteral i.opcode)

end Instruction

end TypedStack
