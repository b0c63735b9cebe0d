import TypedStack.Value.Arithmetic

/-!
# Operands

An operand is a number together with its kind. Two operands are combined in the wider of their
kinds.
-/

namespace TypedStack

/-- A number of some kind. -/
structure Operand where
  kind : Kind
  value : Value kind
deriving DecidableEq, Repr

namespace Operand

/-- The canonical text of an operand. -/
def text (x : Operand) : String := x.value.text

/-- Reads an operand of a kind. -/
def read (kind : Kind) (text : String) : Except Error Operand :=
  match Value.read? kind text.toList with
  | some value => .ok ⟨kind, value⟩
  | none => .error (.invalidLiteral kind text)

/-- Reads an operand of the kind with a tag. -/
def readTagged (tag : Nat) (text : String) : Except Error Operand :=
  match Kind.ofTag? tag with
  | some kind => read kind text
  | none => .error (.unknownTag tag)

/-- Neither an infinity nor not-a-number. -/
def isFinite (x : Operand) : Bool := x.value.isFinite

/-- Operands of one kind that are numerically equal. -/
def sameNumber (x y : Operand) : Bool :=
  if h : y.kind = x.kind then x.value.equal (h ▸ y.value) else false

/-- Equality of operands: they are the same number and are written alike. -/
def same (x y : Operand) : Bool := x.sameNumber y && x.text == y.text

/-- Combines two operands in the wider of their kinds. -/
def apply (op : BinaryOp) (left right : Operand) : Except Error Operand :=
  let kind := left.kind.promote right.kind
  let x : Value kind := left.value.widen (left.kind.le_promote_left right.kind)
  let y : Value kind := right.value.widen (left.kind.le_promote_right right.kind)
  match x.apply op y with
  | .ok value => .ok ⟨kind, value⟩
  | .error fault => .error (fault.error op kind)

end Operand

end TypedStack
