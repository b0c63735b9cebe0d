import TypedStack.Binary.Format

/-!
# Binary floating-point numbers

A number of a format is not-a-number, a signed infinity, or a sign with the code of a finite
magnitude. Every operation computes its exact result and rounds it once, by `Binary.round`.
-/

namespace TypedStack

/-- A floating-point number of format `f`. Zero has two signs. -/
inductive Binary (f : Format) where
  | nan
  | infinite (negative : Bool)
  | finite (negative : Bool) (code : Fin f.finiteCodes)
deriving DecidableEq, Repr

namespace Binary

variable {f : Format}

/-- The number nearest to `± num / den` units; a magnitude beyond the finite ones becomes
infinite. -/
def round (f : Format) (negative : Bool) (num den : Nat) : Binary f :=
  let code := f.nearestCode num den
  if h : code < f.finiteCodes then .finite negative ⟨code, h⟩ else .infinite negative

/-- Zero with a sign. -/
def zero (f : Format) (negative : Bool) : Binary f := round f negative 0 1

/-- Both zeros are zero. -/
def isZero : Binary f → Bool
  | finite _ code => code.val == 0
  | _ => false

/-- Both infinities are infinite. -/
def isInfinite : Binary f → Bool
  | infinite _ => true
  | _ => false

/-- Neither an infinity nor not-a-number. -/
def isFinite : Binary f → Bool
  | finite _ _ => true
  | _ => false

/-- Numeric equality: not-a-number differs from everything, and the two zeros are equal. -/
def equal : Binary f → Binary f → Bool
  | infinite s, infinite t => s == t
  | finite s a, finite t b => a == b && (s == t || a.val == 0)
  | _, _ => false

end Binary

end TypedStack
