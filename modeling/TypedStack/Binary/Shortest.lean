import TypedStack.Binary.Basic
import TypedStack.Decimal.Basic

/-!
# Floating-point numbers and decimals

The number nearest to a decimal, and the shortest decimal to which a number is nearest.
-/

namespace TypedStack.Binary

/-- The number nearest to a decimal. -/
def ofDecimal (f : Format) (negative : Bool) (d : Decimal) : Binary f :=
  round f negative (d.num * f.one) d.den

/-- Whether a decimal reads as the magnitude with this code. -/
def readsAs (f : Format) (code : Nat) (d : Decimal) : Bool :=
  f.nearestCode (d.num * f.one) d.den == code

/-- The decimal that has exactly the magnitude of a code. -/
def exactDecimal (f : Format) (code : Nat) : Decimal :=
  ⟨f.units code * Nat.pow 5 f.scale, -f.scale⟩

/-- The decimals with last place `10 ^ exponent` next to `num / den`, as far as they are within `gap
/ (2 * den)` of it. The nearer one comes first; of two that are equally near, the greater one. -/
def neighbours (num den gap : Nat) (exponent : Int) : List Decimal :=
  let stretch := Nat.pow 10 (-exponent).toNat
  let place := den * Nat.pow 10 exponent.toNat
  let low := num * stretch / place
  let below := num * stretch % place
  let above := place - below
  let down := if 2 * below ≤ gap * stretch then [⟨low, exponent⟩] else []
  let up := if 2 * above ≤ gap * stretch then [⟨low + 1, exponent⟩] else []
  if below < above then down ++ up else up ++ down

/-- Looks for a decimal that reads as the magnitude of a code, at the place `10 ^ exponent` and
those right of it. A decimal that does so is at most half as far from the magnitude as the next
greater one is. -/
def shortestFrom (f : Format) (code : Nat) : (places : Nat) → (exponent : Int) → Decimal
  | 0, _ => exactDecimal f code
  | places + 1, exponent =>
    let gap := f.units (code + 1) - f.units code
    match (neighbours (f.units code) f.one gap exponent).find? (readsAs f code) with
    | some d => d
    | none => shortestFrom f code places (exponent - 1)

/-- An exponent `e` with `num / den ≤ 10 ^ e`, close to the least one. The common logarithm of two
lies between 0.30102 and 0.30103. -/
def leadingPlace (num den : Nat) : Int :=
  if den ≤ num then ((num / den).log2 + 1) * 30103 / 100000 + 1
  else -((den / num).log2 * 30102 / 100000 : Nat)

/-- The decimal with the fewest digits that reads as the magnitude of a nonzero code; of several,
the nearest. Seventeen digits are enough for either precision, and at most three of the places lie
left of the first digit. -/
def shortest (f : Format) (code : Nat) : Decimal :=
  shortestFrom f code 20 (leadingPlace (f.units code) f.one)

end TypedStack.Binary
