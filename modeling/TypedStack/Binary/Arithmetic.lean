import TypedStack.Binary.Basic

/-!
# Floating-point arithmetic

Sums, products, quotients and remainders are computed exactly on units and then rounded once.
Conversions take an integer, or a number of another format, to the nearest number.
-/

namespace TypedStack.Binary

variable {f : Format}

/-- Units with a sign. -/
def signedUnits (negative : Bool) (units : Nat) : Int := if negative then -units else units

/-- The number with the opposite sign. -/
def neg : Binary f → Binary f
  | nan => nan
  | infinite s => infinite !s
  | finite s a => finite (!s) a

/-- The sum. A sum of zero is negative only if both summands are. -/
def add : Binary f → Binary f → Binary f
  | nan, _ | _, nan => nan
  | infinite s, infinite t => if s = t then infinite s else nan
  | infinite s, finite _ _ => infinite s
  | finite _ _, infinite t => infinite t
  | finite s a, finite t b =>
    let sum := signedUnits s (f.units a) + signedUnits t (f.units b)
    round f (if sum = 0 then s && t else sum < 0) sum.natAbs 1

/-- The difference. -/
def sub (x y : Binary f) : Binary f := x.add y.neg

/-- The product. -/
def mul : Binary f → Binary f → Binary f
  | nan, _ | _, nan => nan
  | infinite s, infinite t => infinite (s ^^ t)
  | infinite s, finite t b => if b.val = 0 then nan else infinite (s ^^ t)
  | finite s a, infinite t => if a.val = 0 then nan else infinite (s ^^ t)
  | finite s a, finite t b => round f (s ^^ t) (f.units a * f.units b) f.one

/-- The quotient. -/
def div : Binary f → Binary f → Binary f
  | nan, _ | _, nan => nan
  | infinite _, infinite _ => nan
  | infinite s, finite t _ => infinite (s ^^ t)
  | finite s _, infinite t => zero f (s ^^ t)
  | finite s a, finite t b =>
    if b.val ≠ 0 then round f (s ^^ t) (f.units a * f.one) (f.units b)
    else if a.val = 0 then nan
    else infinite (s ^^ t)

/-- The remainder of the quotient truncated toward zero; it has the sign of the dividend and is
never rounded. -/
def mod : Binary f → Binary f → Binary f
  | nan, _ | _, nan => nan
  | infinite _, _ => nan
  | finite s a, infinite _ => finite s a
  | finite s a, finite _ b =>
    if b.val = 0 then nan else round f s (f.units a % f.units b) 1

/-- The number nearest to an integer. -/
def ofInt (f : Format) (n : Int) : Binary f := round f (n < 0) (n.natAbs * f.one) 1

/-- The number of format `g` nearest to a number of format `f`. -/
def convert (g : Format) : Binary f → Binary g
  | nan => nan
  | infinite s => infinite s
  | finite s a => round g s (f.units a * g.one) f.one

end TypedStack.Binary
