import TypedStack.Instruction

/-!
# Written values

In a program a value is written as its kind followed by its digits in parentheses, such as
`int8(-5)` or `double(0.5)`. The digits may begin with a minus sign, and those of a floating-point
kind may have a fraction.
-/

namespace TypedStack.Literal

/-- Whether digits are written as a value of the kind requires. -/
def isWritten (kind : Kind) (digits : List Char) : Bool :=
  let magnitude := match digits with
    | '-' :: cs => cs
    | cs => cs
  let whole := magnitude.takeWhile (· != '.')
  match magnitude.dropWhile (· != '.') with
  | [] => Numeral.isDigits whole
  | _ :: fraction => !kind.isInteger && Numeral.isDigits whole && Numeral.isDigits fraction

/-- Takes a word of the form `name(inside)` apart. -/
def splitParens? (word : List Char) : Option (List Char × List Char) :=
  match word.dropWhile (· != '(') with
  | [] => none
  | _ :: rest =>
    if rest.getLast? = some ')' then some (word.takeWhile (· != '('), rest.dropLast) else none

/-- The kind and digits of a word that is written as a value. -/
def ofWord? (word : String) : Option Literal :=
  (splitParens? word.toList).bind fun (name, digits) =>
    (Kind.ofName? (String.ofList name)).bind fun kind =>
      if isWritten kind digits then some ⟨kind, String.ofList digits⟩ else none

/-- Whether the kind of a literal has a finite number with its text. -/
def fits (literal : Literal) : Bool :=
  match literal.operand with
  | .ok x => x.isFinite
  | .error _ => false

/-- Reads a written value. -/
def parse (word : String) : Except Error Literal :=
  match ofWord? word with
  | none => .error (.malformedValue word)
  | some literal =>
    if literal.fits then .ok literal else .error (.literalOutOfRange literal.kind literal.text)

end TypedStack.Literal
