import TypedStack.Assembly.Line
import TypedStack.Source.Program
import TypedStack.Text.Basic

/-!
# Listings

A listing is the text of a program, pulled line by line. Lines without an instruction are passed
over, an unreadable line is an error and the next pull goes on behind it, and nothing is read any
more once the end was found: an `exit` instruction, the last line or, in interactive mode, a line
`;;`.
-/

namespace TypedStack

/-- Whether a line `;;` ends the text. -/
inductive Mode where
  | file
  | interactive
deriving DecidableEq, Repr

/-- What a line of a listing stands for. -/
inductive LineMeaning where
  | blank
  | stop
  | instruction (i : Instruction)
  | error (e : Error)
deriving DecidableEq, Repr

namespace LineMeaning

/-- The line that ends a program in interactive mode, apart from blanks around it. -/
def isStop (line : String) : Bool := Text.words line.toList == [[';', ';']]

/-- The meaning of a line of text. -/
def ofText (mode : Mode) (line : String) : LineMeaning :=
  if mode = .interactive ∧ isStop line then stop
  else match Instruction.parse line with
    | .ok none => blank
    | .ok (some i) => instruction i
    | .error e => error e

/-- The meaning of a line of bytes. -/
def ofBytes (mode : Mode) (line : List UInt8) : LineMeaning :=
  match Text.decode? line with
  | some text => ofText mode text
  | none => error (.device "stream did not contain valid UTF-8")

end LineMeaning

/-- What is left of the text of a program, and the number of lines already read. -/
structure Listing where
  mode : Mode
  rest : List UInt8
  line : Nat
  finished : Bool
deriving DecidableEq, Repr

namespace Listing

/-- A listing from its start. -/
def ofBytes (mode : Mode) (bytes : List UInt8) : Listing := ⟨mode, bytes, 0, false⟩

/-- Reads lines up to the first one that is not blank. -/
def pull (mode : Mode) (bytes : List UInt8) (line : Nat) : Pull Listing :=
  match bytes with
  | [] => ⟨.ok .exit, ⟨mode, [], line, true⟩, []⟩
  | b :: bs =>
    let rest := (Text.takeLine (b :: bs)).2
    match LineMeaning.ofBytes mode (Text.takeLine (b :: bs)).1 with
    | .blank => pull mode rest (line + 1)
    | .stop => ⟨.ok .exit, ⟨mode, rest, line + 1, true⟩, []⟩
    | .instruction i =>
      ⟨.ok i, ⟨mode, rest, line + 1, i.opcode == .exit⟩, [.parsed (line + 1) i.opcode]⟩
    | .error e => ⟨.error e, ⟨mode, rest, line + 1, false⟩, []⟩
termination_by bytes.length
decreasing_by exact Text.length_takeLine_lt (List.cons_ne_nil b bs)

/-- A pulled instruction takes up some of the text, unless it is an `exit`. -/
theorem length_rest_pull_lt {mode : Mode} {bytes : List UInt8} {line : Nat} {i : Instruction}
    (hi : (pull mode bytes line).result = .ok i) (hop : i.opcode ≠ .exit) :
    (pull mode bytes line).source.rest.length < bytes.length := by
  fun_induction pull mode bytes line with
  | case1 line =>
    cases hi
    exact absurd rfl hop
  | case2 line b bs rest _ ih =>
    exact Nat.lt_trans (ih hi) (Text.length_takeLine_lt (List.cons_ne_nil b bs))
  | case3 line b bs rest _ =>
    cases hi
    exact absurd rfl hop
  | case4 line b bs rest => exact Text.length_takeLine_lt (List.cons_ne_nil b bs)
  | case5 line b bs rest => cases hi

/-- Pulls the next instruction. -/
def next (l : Listing) : Pull Listing :=
  if l.finished then ⟨.ok .exit, l, []⟩ else pull l.mode l.rest l.line

end Listing

end TypedStack
