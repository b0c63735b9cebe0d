import TypedStack.Decimal.Basic

/-!
# Layout of decimal numbers

Where the point of a decimal number goes. Numbers of ordinary size are written positionally, with at
least one digit on each side of the point; the others in scientific form, with one digit before the
point and no point if no digit follows.
-/

namespace TypedStack.Decimal

/-- How far the point stands to the right of the start of the digits. -/
def point (d : Decimal) : Int := (Nat.toDigits 10 d.digits).length + d.exponent

/-- Numbers from `10 ^ -4` up to but not including `10 ^ 16` are written positionally. -/
def isPositional (d : Decimal) : Bool := -4 < d.point && d.point ≤ 16

/-- The positional form. -/
def positional (d : Decimal) : String :=
  let digits := Nat.toDigits 10 d.digits
  let zeros (n : Int) : List Char := List.replicate n.toNat '0'
  if d.point ≤ 0 then String.ofList ('0' :: '.' :: zeros (-d.point) ++ digits)
  else if 0 ≤ d.exponent then String.ofList (digits ++ zeros d.exponent ++ ['.', '0'])
  else String.ofList (digits.take d.point.toNat ++ '.' :: digits.drop d.point.toNat)

/-- The scientific form. -/
def scientific (d : Decimal) : String :=
  let mantissa := match Nat.toDigits 10 d.digits with
    | first :: second :: rest => first :: '.' :: second :: rest
    | digits => digits
  String.ofList mantissa ++ s!"e{d.point - 1}"

/-- The text of a decimal number. -/
def text (d : Decimal) : String := if d.isPositional then d.positional else d.scientific

end TypedStack.Decimal
