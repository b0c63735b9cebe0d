/-!
# Text

Text as bytes in UTF-8 and the physical lines of a byte string, the blanks that separate words, and
signs and runs of decimal digits. Digits are the ten ASCII digits, and a run of them may have any
length and any number of leading zeros.
-/

namespace TypedStack

namespace Text

/-! ## Bytes and lines -/

/-- The UTF-8 bytes of a text. -/
def encode (s : String) : List UInt8 := s.toUTF8.data.toList

/-- The text with the given UTF-8 bytes, if they are valid. -/
def decode? (bytes : List UInt8) : Option String := String.fromUTF8? ⟨bytes.toArray⟩

/-- Decoding takes the bytes of a text back to the text. -/
@[simp] theorem decode?_encode (s : String) : decode? (encode s) = some s := by
  simp only [decode?, encode, String.toUTF8, Array.toArray_toList]
  exact dif_pos s.isValidUTF8

/-- The byte that ends a line. -/
def newline : UInt8 := 10

/-- The first line, with its newline if it has one, and the bytes behind it. -/
def takeLine (bytes : List UInt8) : List UInt8 × List UInt8 :=
  let rest := bytes.dropWhile (· != newline)
  (bytes.takeWhile (· != newline) ++ rest.take 1, rest.drop 1)

/-- A line takes at least one byte. -/
theorem length_takeLine_lt {bytes : List UInt8} (h : bytes ≠ []) :
    (takeLine bytes).2.length < bytes.length := by
  cases bytes with
  | nil => exact absurd rfl h
  | cons b bs =>
    have shorter := (List.dropWhile_sublist (· != newline) (l := bs)).length_le
    simp only [takeLine, List.length_drop, List.dropWhile_cons, List.length_cons]
    split
    · omega
    · simp only [List.length_cons]
      omega

/-! ## Blanks and words -/

/-- The characters with the Unicode property `White_Space`, as ranges of code points. -/
def blankRanges : List (Nat × Nat) :=
  [(0x0009, 0x000D), (0x0020, 0x0020), (0x0085, 0x0085), (0x00A0, 0x00A0), (0x1680, 0x1680),
    (0x2000, 0x200A), (0x2028, 0x2029), (0x202F, 0x202F), (0x205F, 0x205F), (0x3000, 0x3000)]

/-- Blanks separate words. -/
def isBlank (c : Char) : Bool :=
  blankRanges.any fun (first, last) => first ≤ c.toNat && c.toNat ≤ last

/-- The maximal runs of characters that are not blank. -/
def words (cs : List Char) : List (List Char) := (cs.splitOnP isBlank).filter (!·.isEmpty)

end Text

/-! ## Numerals -/

namespace Numeral

/-- Separates one leading sign, and tells whether it is negative. -/
def splitSign : List Char → Bool × List Char
  | '-' :: cs => (true, cs)
  | '+' :: cs => (false, cs)
  | cs => (false, cs)

/-- A run of digits has at least one. -/
def isDigits (cs : List Char) : Bool := !cs.isEmpty && cs.all Char.isDigit

/-- The number that a run of digits stands for. -/
def natOfDigits (cs : List Char) : Nat := Nat.ofDigitChars 10 cs 0

/-- Reads a run of digits. -/
def readNat? (cs : List Char) : Option Nat :=
  if isDigits cs then some (natOfDigits cs) else none

/-- Reads a run of digits after an optional sign. -/
def readInt? (cs : List Char) : Option Int :=
  let (negative, digits) := splitSign cs
  (readNat? digits).map fun n => if negative then -n else n

end Numeral

end TypedStack
