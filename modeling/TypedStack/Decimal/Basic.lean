import TypedStack.Text.Basic

/-!
# Decimal numbers

Non-negative decimal numbers in scientific form, and how they are read.
-/

namespace TypedStack

/-- The number `digits * 10 ^ exponent`. -/
structure Decimal where
  digits : Nat
  exponent : Int
deriving DecidableEq, Repr

namespace Decimal

/-- The numerator of a decimal as a fraction. -/
def num (d : Decimal) : Nat := d.digits * Nat.pow 10 d.exponent.toNat

/-- The denominator of a decimal as a fraction. -/
def den (d : Decimal) : Nat := Nat.pow 10 (-d.exponent).toNat

/-- The value of the digits of an exponent. It stops growing once it has reached 65536, so that no
text, however short, stands for a number too long to compute with. -/
def exponentOfDigits (cs : List Char) : Nat :=
  cs.foldl (fun n c => if n < 65536 then 10 * n + (c.toNat - '0'.toNat) else n) 0

/-- Reads what may follow the digits of a number: nothing, or an exponent. -/
def readExponent? : List Char → Option Int
  | [] => some 0
  | mark :: cs =>
    let (negative, digits) := Numeral.splitSign cs
    if (mark = 'e' ∨ mark = 'E') ∧ Numeral.isDigits digits then
      let n := exponentOfDigits digits
      some (if negative then -n else n)
    else none

/-- Reads an unsigned number: digits with an optional point among, before or behind them, and an
optional exponent. -/
def read? (cs : List Char) : Option Decimal :=
  let whole := cs.takeWhile Char.isDigit
  let (fraction, rest) := match cs.dropWhile Char.isDigit with
    | '.' :: rest => (rest.takeWhile Char.isDigit, rest.dropWhile Char.isDigit)
    | rest => ([], rest)
  if whole.isEmpty && fraction.isEmpty then none
  else (readExponent? rest).map fun exponent =>
    ⟨Numeral.natOfDigits (whole ++ fraction), exponent - fraction.length⟩

end Decimal

end TypedStack
