import TypedStack.Binary.Text
import TypedStack.Kind
import TypedStack.Word

/-!
# Values of a kind

The numbers of each kind, their canonical text and how text is read as a number of a given kind.
-/

namespace TypedStack

/-- The floating-point format of a precision. -/
def Precision.format : Precision → Format
  | .single => .single
  | .double => .double

/-- The numbers of a kind. -/
def Value : Kind → Type
  | .integer w => BitVec w.bits
  | .floating p => Binary p.format

namespace Value

instance : (k : Kind) → DecidableEq (Value k)
  | .integer w => inferInstanceAs (DecidableEq (BitVec w.bits))
  | .floating p => inferInstanceAs (DecidableEq (Binary p.format))

instance : (k : Kind) → Repr (Value k)
  | .integer w => inferInstanceAs (Repr (BitVec w.bits))
  | .floating p => inferInstanceAs (Repr (Binary p.format))

/-- The canonical text of a number. -/
def text : {k : Kind} → Value k → String
  | .integer _, a => Word.text a
  | .floating _, x => Binary.text x

/-- Reads a number of a kind. -/
def read? : (k : Kind) → List Char → Option (Value k)
  | .integer w, cs => Word.read? w.bits cs
  | .floating p, cs => Binary.read? p.format cs

/-- Neither an infinity nor not-a-number. -/
def isFinite : {k : Kind} → Value k → Bool
  | .integer _, _ => true
  | .floating _, x => Binary.isFinite x

/-- Numeric equality: not-a-number differs from itself, and the two zeros of a floating-point kind
are equal. -/
def equal : {k : Kind} → Value k → Value k → Bool
  | .integer w, a, b => decide ((a : BitVec w.bits) = b)
  | .floating _, x, y => Binary.equal x y

end Value

end TypedStack
