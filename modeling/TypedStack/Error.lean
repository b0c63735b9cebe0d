import TypedStack.Kind
import TypedStack.Opcode

/-!
# Errors

Everything that can go wrong while a program is read or executed, by cause, and the wording of each
cause. A fault is why an operation on two numbers of one kind has no result.
-/

namespace TypedStack

/-- Why an instruction could not be read or performed. -/
inductive Error where
  /-- An instruction needs more operands than the stack holds. -/
  | stackUnderflow (op : Opcode) (required found : Nat)
  /-- A push onto a stack that already holds as many operands as its limit allows. -/
  | stackOverflow (limit : Nat)
  /-- The top of the stack does not have the expected text; `none` stands for an empty stack. -/
  | assertionFailed (expected : String) (actual : Option String)
  /-- Only an `int8` can be printed as a character. -/
  | notPrintable (kind : Kind)
  /-- The result is greater than the greatest number of its kind. -/
  | overflow (op : BinaryOp) (kind : Kind)
  /-- The result is less than the least number of its kind. -/
  | underflow (op : BinaryOp) (kind : Kind)
  /-- The divisor is zero. -/
  | divisionByZero (op : BinaryOp)
  /-- No kind has this tag. -/
  | unknownTag (tag : Nat)
  /-- The text is no number of the kind. -/
  | invalidLiteral (kind : Kind) (text : String)
  /-- The text is a well-formed number that the kind cannot hold. -/
  | literalOutOfRange (kind : Kind) (text : String)
  /-- The first word of a line is no mnemonic. -/
  | unknownInstruction (word : String)
  /-- A word is no written value, or no word belongs at its place. -/
  | malformedValue (word : String)
  /-- An instruction lacks the literal that it takes. -/
  | missingLiteral (op : Opcode)
  /-- A line gives a value to an instruction that takes none. -/
  | unexpectedLiteral (op : Opcode)
  /-- Reading the program or writing its output failed. -/
  | device (reason : String)
deriving DecidableEq, Repr

/-- The wording of an error. -/
def Error.message : Error → String
  | stackUnderflow op required found =>
    s!"{op.mnemonic} requires {required} value(s) on the stack, found {found}"
  | stackOverflow limit => s!"stack overflow: limit of {limit} value(s) reached"
  | assertionFailed expected actual =>
    s!"assertion failed: expected {expected}, found " ++ actual.getD "empty stack"
  | notPrintable kind => s!"print expects an int8 on top of the stack, found {kind.name}"
  | overflow op kind => s!"overflow: {op.name} exceeds the {kind.name} range"
  | underflow op kind => s!"underflow: {op.name} falls below the {kind.name} range"
  | divisionByZero op => s!"division by zero in {op.name}"
  | unknownTag tag => s!"invalid operand kind tag: {tag}"
  | invalidLiteral kind text => s!"invalid {kind.name} literal: {text}"
  | literalOutOfRange kind text => s!"{kind.name} literal out of range: {text}"
  | unknownInstruction word => s!"unknown instruction: {word}"
  | malformedValue word => s!"malformed value: {word}"
  | missingLiteral op => s!"{op.mnemonic} requires a value"
  | unexpectedLiteral op => s!"{op.mnemonic} takes no value"
  | device reason => s!"io error: {reason}"

/-- The ways in which an arithmetic operation fails. -/
inductive Fault where
  | overflow
  | underflow
  | divisionByZero
deriving DecidableEq, Repr

/-- The error that a fault of operation `op` in kind `kind` is reported as. -/
def Fault.error (op : BinaryOp) (kind : Kind) : Fault → Error
  | overflow => .overflow op kind
  | underflow => .underflow op kind
  | divisionByZero => .divisionByZero op

/-- An error together with the line of the program at which it arose. -/
structure Failure where
  line : Nat
  error : Error
deriving DecidableEq, Repr

/-- The report of a failure, without its final newline. -/
def Failure.message (failure : Failure) : String :=
  s!"Line {failure.line} : Error : {failure.error.message}"

end TypedStack
