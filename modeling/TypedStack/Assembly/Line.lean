import TypedStack.Assembly.Value
import TypedStack.Text.Basic

/-!
# Lines of a program

A line holds at most one instruction: a mnemonic and, for the instructions that take one, a value. A
semicolon starts a comment that goes on to the end of the line.
-/

namespace TypedStack

/-- The words of a line, without its comment. -/
def Text.codeWords (line : String) : List String :=
  (Text.words (line.toList.takeWhile (· != ';'))).map String.ofList

namespace Instruction

/-- Reads the words behind a mnemonic. A second word is never in place, whatever the first one
is. -/
def parseArguments (op : Opcode) : List String → Except Error Instruction
  | [] => if op.takesLiteral then .error (.missingLiteral op) else .ok ⟨op, none⟩
  | [word] =>
    if op.takesLiteral then (Literal.parse word).map fun literal => ⟨op, some literal⟩
    else .error (.unexpectedLiteral op)
  | _ :: extra :: _ => .error (.malformedValue extra)

/-- Reads a line; one without words holds no instruction. -/
def parse (line : String) : Except Error (Option Instruction) :=
  match Text.codeWords line with
  | [] => .ok none
  | first :: arguments =>
    match Opcode.ofMnemonic? first with
    | none => .error (.unknownInstruction first)
    | some op => (parseArguments op arguments).map some

end Instruction

end TypedStack
