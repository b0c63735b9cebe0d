import TypedStack.Operand

/-!
# The operand stack

A stack of operands that may have a limit on its size. No stack holds more than its limit allows.
-/

namespace TypedStack

/-- A stack; `items` has the top first. -/
@[ext] structure Stack where
  limit : Option Nat
  items : List Operand
  /-- There are at most as many operands as the limit allows. -/
  within : ∀ n, limit = some n → items.length ≤ n
deriving DecidableEq, Repr

namespace Stack

/-- A stack without operands. -/
def empty (limit : Option Nat) : Stack := ⟨limit, [], fun n _ => Nat.zero_le n⟩

/-- The number of operands. -/
def size (s : Stack) : Nat := s.items.length

/-- The stack without its `count` topmost operands. -/
def drop (count : Nat) (s : Stack) : Stack where
  limit := s.limit
  items := s.items.drop count
  within n hn :=
    Nat.le_trans (List.length_drop ▸ Nat.sub_le s.items.length count) (s.within n hn)

/-- Puts an operand on top, unless the limit is reached. -/
def push (s : Stack) (x : Operand) : Except Error Stack :=
  match s.limit with
  | none => .ok ⟨none, x :: s.items, nofun⟩
  | some limit =>
    if room : s.size < limit then
      .ok ⟨some limit, x :: s.items, fun _ hn => Option.some.inj hn ▸ room⟩
    else .error (.stackOverflow limit)

/-- The operand on top. -/
def top? (s : Stack) : Option Operand := s.items.head?

/-- The operand on top and the stack below it. -/
def pop? (s : Stack) : Option (Operand × Stack) :=
  match s.items with
  | x :: _ => some (x, s.drop 1)
  | [] => none

/-- The operand on top, the one below it, and the stack below both. -/
def popPair? (s : Stack) : Option (Operand × Operand × Stack) :=
  match s.items with
  | x :: y :: _ => some (x, y, s.drop 2)
  | _ => none

end Stack

end TypedStack
