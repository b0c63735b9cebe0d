/-!
# Kinds of numbers

A number on the stack has one of five kinds: a two's complement integer of one of three widths, or a
binary floating-point number of one of two precisions. Kinds are totally ordered by how much they
can hold, and an operation on two kinds is carried out in the larger one.
-/

namespace TypedStack

/-- The widths of integer kinds. -/
inductive Width where
  | w8
  | w16
  | w32
deriving DecidableEq, Repr

/-- How many bits an integer of this width has. -/
def Width.bits : Width → Nat
  | .w8 => 8
  | .w16 => 16
  | .w32 => 32

/-- The precisions of floating-point kinds. -/
inductive Precision where
  | single
  | double
deriving DecidableEq, Repr

/-- The kind of a number. -/
inductive Kind where
  | integer (width : Width)
  | floating (precision : Precision)
deriving DecidableEq, Repr

namespace Kind

@[match_pattern] abbrev int8 : Kind := .integer .w8
@[match_pattern] abbrev int16 : Kind := .integer .w16
@[match_pattern] abbrev int32 : Kind := .integer .w32
@[match_pattern] abbrev float : Kind := .floating .single
@[match_pattern] abbrev double : Kind := .floating .double

/-- All kinds, from the narrowest to the widest. -/
def all : List Kind := [int8, int16, int32, float, double]

/-- The position of a kind in the order of kinds. -/
def tag : Kind → Nat
  | int8 => 0
  | int16 => 1
  | int32 => 2
  | float => 3
  | double => 4

/-- The kind at a position of the order. -/
def ofTag? (tag : Nat) : Option Kind := all[tag]?

/-- A kind is found again by its tag. -/
@[simp] theorem ofTag?_tag (k : Kind) : ofTag? k.tag = some k := by
  rcases k with ⟨_ | _ | _⟩ | ⟨_ | _⟩ <;> rfl

/-- The name of a kind in programs and messages. -/
def name : Kind → String
  | int8 => "int8"
  | int16 => "int16"
  | int32 => "int32"
  | float => "float"
  | double => "double"

/-- The kind that a name stands for; names are case-sensitive. -/
def ofName? (name : String) : Option Kind := all.find? (·.name == name)

/-- A kind is found again by its name. -/
@[simp] theorem ofName?_name (k : Kind) : ofName? k.name = some k := by
  rcases k with ⟨_ | _ | _⟩ | ⟨_ | _⟩ <;> rfl

/-- Only the name of a kind is read as that kind. -/
theorem name_of_ofName? {name : String} {k : Kind} (h : ofName? name = some k) : k.name = name := by
  simpa using List.find?_some h

/-- Integer kinds hold no fractions. -/
def isInteger : Kind → Bool
  | .integer _ => true
  | .floating _ => false

instance : LE Kind := ⟨fun k l => k.tag ≤ l.tag⟩

instance (k l : Kind) : Decidable (k ≤ l) := inferInstanceAs (Decidable (k.tag ≤ l.tag))

/-- The kind in which an operation on kinds `k` and `l` is carried out: the wider of the two. -/
def promote (k l : Kind) : Kind := if k ≤ l then l else k

/-- The wider kind is at least as wide as the first. -/
theorem le_promote_left (k l : Kind) : k ≤ k.promote l := by
  unfold promote
  split
  · assumption
  · exact Nat.le_refl _

/-- The wider kind is at least as wide as the second. -/
theorem le_promote_right (k l : Kind) : l ≤ k.promote l := by
  unfold promote
  split
  · exact Nat.le_refl _
  · next h => exact Nat.le_of_lt (Nat.lt_of_not_le h)

/-- No floating-point kind is below an integer kind. -/
theorem not_floating_le_integer (p : Precision) (w : Width) : ¬ floating p ≤ integer w := by
  cases p <;> cases w <;> decide

end Kind

end TypedStack
