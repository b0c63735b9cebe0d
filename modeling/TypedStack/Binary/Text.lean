import TypedStack.Binary.Shortest
import TypedStack.Decimal.Layout

/-!
# Text of floating-point numbers

A finite number is written with the fewest digits that read back to it. Reading accepts more than
writing produces: either sign, exponents on numbers of any size, and the names of the special values
in any letter case.
-/

namespace TypedStack.Binary

variable {f : Format}

/-- The sign of a number in its text. -/
def signText (negative : Bool) : String := if negative then "-" else ""

/-- The canonical text of a number. -/
def text : Binary f → String
  | nan => "NaN"
  | infinite s => signText s ++ "inf"
  | finite s code =>
    signText s ++ if code.val = 0 then "0.0" else (shortest f code).text

/-- Reads an unsigned number with the given sign. -/
def readMagnitude? (f : Format) (negative : Bool) (cs : List Char) : Option (Binary f) :=
  let lower := String.ofList (cs.map Char.toLower)
  if lower = "nan" then some nan
  else if lower = "inf" ∨ lower = "infinity" then some (infinite negative)
  else (Decimal.read? cs).map (ofDecimal f negative)

/-- Reads a number after an optional sign. -/
def read? (f : Format) (cs : List Char) : Option (Binary f) :=
  let (negative, magnitude) := Numeral.splitSign cs
  readMagnitude? f negative magnitude

end TypedStack.Binary
