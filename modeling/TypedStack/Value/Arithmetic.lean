import TypedStack.Binary.Arithmetic
import TypedStack.Value.Basic

/-!
# Arithmetic on values

Operations on two numbers of one kind, and the conversion of a number to a wider kind.
-/

namespace TypedStack

/-- The arithmetic operations on floating-point numbers. A product fails if it is infinite, even if
a factor already was; a quotient or remainder fails if the divisor is zero. Sums and quotients may
be infinite. -/
def Binary.apply {f : Format} : BinaryOp → Binary f → Binary f → Except Fault (Binary f)
  | .add, x, y => .ok (x.add y)
  | .sub, x, y => .ok (x.sub y)
  | .mul, x, y => if (x.mul y).isInfinite then .error .overflow else .ok (x.mul y)
  | .div, x, y => if y.isZero then .error .divisionByZero else .ok (x.div y)
  | .mod, x, y => if y.isZero then .error .divisionByZero else .ok (x.mod y)

namespace Value

/-- The arithmetic operations on two numbers of one kind. -/
def apply (op : BinaryOp) : {k : Kind} → Value k → Value k → Except Fault (Value k)
  | .integer _, a, b => Word.apply op a b
  | .floating _, x, y => Binary.apply op x y

/-- Converts a number to a kind that is at least as wide. -/
def widen : {k l : Kind} → k ≤ l → Value k → Value l
  | .integer _, .integer w, _, a => BitVec.signExtend w.bits a
  | .integer _, .floating p, _, a => Binary.ofInt p.format (BitVec.toInt a)
  | .floating _, .floating p, _, x => Binary.convert p.format x
  | .floating p, .integer w, h, _ => absurd h (Kind.not_floating_le_integer p w)

end Value

end TypedStack
