import TypedStack.Error
import TypedStack.Text.Basic

/-!
# Two's complement words

Integers of a fixed width: checked arithmetic, and their decimal text. An operation whose exact
result does not fit fails, and the signs of its operands tell on which side the result lies.
-/

namespace TypedStack.Word

variable {n : Nat}

/-- Greater than zero as a signed number. -/
def isPositive (a : BitVec n) : Bool := 0 < a.toInt

/-- The sum. It can only leave the range in the direction of the second summand. -/
def add (a b : BitVec n) : Except Fault (BitVec n) :=
  if a.saddOverflow b then .error (if isPositive b then .overflow else .underflow) else .ok (a + b)

/-- The difference. It can only leave the range in the direction opposite to the subtrahend. -/
def sub (a b : BitVec n) : Except Fault (BitVec n) :=
  if a.ssubOverflow b then .error (if isPositive b then .underflow else .overflow) else .ok (a - b)

/-- The product. Factors of one sign can only leave the range upwards, others only downwards. -/
def mul (a b : BitVec n) : Except Fault (BitVec n) :=
  if a.smulOverflow b then .error (if isPositive a == isPositive b then .overflow else .underflow)
    else .ok (a * b)

/-- The quotient, truncated toward zero. Only the least number divided by minus one leaves the
range. -/
def div (a b : BitVec n) : Except Fault (BitVec n) :=
  if b = 0 then .error .divisionByZero
  else if a.sdivOverflow b then .error .overflow
  else .ok (a.sdiv b)

/-- The remainder of the truncated quotient; it has the sign of the dividend. -/
def mod (a b : BitVec n) : Except Fault (BitVec n) :=
  if b = 0 then .error .divisionByZero else .ok (a.srem b)

/-- The arithmetic operations on words. -/
def apply : BinaryOp → BitVec n → BitVec n → Except Fault (BitVec n)
  | .add => add
  | .sub => sub
  | .mul => mul
  | .div => div
  | .mod => mod

/-- The decimal text of a word. -/
def text (a : BitVec n) : String := toString a.toInt

/-- Reads a signed decimal number that fits into `n` bits. -/
def read? (n : Nat) (cs : List Char) : Option (BitVec n) :=
  (Numeral.readInt? cs).bind fun x =>
    if (BitVec.intMin n).toInt ≤ x ∧ x ≤ (BitVec.intMax n).toInt then some (BitVec.ofInt n x)
      else none

end TypedStack.Word
