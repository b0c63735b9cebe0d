import Mathlib.Tactic.Lemma
import TypedStack.Text.Basic

/-!
# Physical lines

All lines of a byte string at once, and that taking lines off the front one by one gives the same
lines.
-/

namespace TypedStack.Text

/-- The lines of a byte string. A newline ends a line and belongs to it; the last line may lack
one. -/
def lines : List UInt8 → List (List UInt8)
  | [] => []
  | b :: bs =>
    if b = newline then [b] :: lines bs
    else match lines bs with
      | [] => [[b]]
      | line :: rest => (b :: line) :: rest

/-- A newline in front is a line of its own. -/
lemma takeLine_newline (bs : List UInt8) : takeLine (newline :: bs) = ([newline], bs) := by
  simp [takeLine]

/-- Another byte in front belongs to the first line. -/
lemma takeLine_cons {b : UInt8} (hb : b ≠ newline) (bs : List UInt8) :
    takeLine (b :: bs) = (b :: (takeLine bs).1, (takeLine bs).2) := by
  simp [takeLine, hb]

/-- The first of the lines is the one that is taken off the front. -/
lemma lines_eq_takeLine {bytes : List UInt8} (h : bytes ≠ []) :
    lines bytes = (takeLine bytes).1 :: lines (takeLine bytes).2 := by
  induction bytes with
  | nil => exact absurd rfl h
  | cons b bs ih =>
    by_cases hb : b = newline
    · subst hb
      rw [takeLine_newline, lines, if_pos rfl]
    · rw [takeLine_cons hb, lines, if_neg hb]
      cases bs with
      | nil => rfl
      | cons c bs => rw [ih (List.cons_ne_nil c bs)]

/-- No byte is lost. -/
lemma flatten_lines (bytes : List UInt8) : (lines bytes).flatten = bytes := by
  induction bytes with
  | nil => rfl
  | cons b bs ih =>
    by_cases hb : b = newline
    · rw [lines, if_pos hb, List.flatten_cons, ih, List.singleton_append]
    · rw [lines, if_neg hb]
      cases h : lines bs with
      | nil =>
        rw [h] at ih
        rw [← ih]
        rfl
      | cons line rest =>
        rw [h] at ih
        rw [← ih]
        rfl

/-- The first lines of a byte string are the lines of what they hold together. -/
lemma lines_flatten_take (count : Nat) (bytes : List UInt8) :
    lines ((lines bytes).take count).flatten = (lines bytes).take count := by
  induction bytes generalizing count with
  | nil => simp [lines]
  | cons b bs ih =>
    cases count with
    | zero => simp [lines]
    | succ count =>
      by_cases hb : b = newline
      · rw [lines, if_pos hb, List.take_succ_cons, List.flatten_cons, List.singleton_append, lines,
          if_pos hb, ih]
      · rw [lines, if_neg hb]
        cases h : lines bs with
        | nil => simp [lines, hb]
        | cons line rest =>
          have ih := ih (count + 1)
          rw [h, List.take_succ_cons, List.flatten_cons] at ih
          rw [List.take_succ_cons, List.flatten_cons, List.cons_append, lines, if_neg hb, ih]

/-! ## Lines of encoded text -/

/-- A text has the bytes that it was decoded from. -/
lemma encode_of_decode? {line : List UInt8} {text : String} (h : decode? line = some text) :
    encode text = line := by
  unfold decode? String.fromUTF8? at h
  split at h
  · cases h
    rfl
  · cases h

/-- A text is encoded character by character. -/
lemma encode_eq_flatMap (s : String) : encode s = s.toList.flatMap String.utf8EncodeChar := by
  rw [encode, String.toUTF8_eq_toByteArray, ← String.utf8Encode_toList, List.utf8Encode,
    List.toList_data_toByteArray]

/-- Texts are encoded one behind the other. -/
lemma encode_append (s t : String) : encode (s ++ t) = encode s ++ encode t := by
  simp only [encode_eq_flatMap, String.toList_append, List.flatMap_append]

/-- Among the bytes of a character there is a newline only if the character is one: all bytes of a
character that takes several have their highest bit set. -/
lemma eq_of_newline_mem_utf8EncodeChar {c : Char} (h : newline ∈ String.utf8EncodeChar c) :
    c = '\n' := by
  have code : ∀ {n}, newline = UInt8.ofNat n → n % 256 = 10 := by
    intro n hn
    rw [← UInt8.toNat_ofNat', ← hn]
    rfl
  unfold String.utf8EncodeChar at h
  dsimp only at h
  split at h
  · next small =>
    have := code (List.mem_singleton.mp h)
    apply Char.ext
    apply UInt32.toNat_inj.mp
    have : c.val.toNat = 10 := by omega
    rw [this]
    rfl
  · exfalso
    -- the remaining encodings differ only in how many bytes follow the first
    split at h
    · simp only [List.mem_cons, List.not_mem_nil, or_false] at h
      rcases h with h | h <;> have := code h <;> omega
    · split at h
      · simp only [List.mem_cons, List.not_mem_nil, or_false] at h
        rcases h with h | h | h <;> have := code h <;> omega
      · simp only [List.mem_cons, List.not_mem_nil, or_false] at h
        rcases h with h | h | h | h <;> have := code h <;> omega

/-- A text without newlines has no such byte. -/
lemma newline_not_mem_encode {s : String} (h : '\n' ∉ s.toList) : newline ∉ encode s := by
  rw [encode_eq_flatMap]
  intro mem
  obtain ⟨c, hc, mem⟩ := List.mem_flatMap.mp mem
  rw [eq_of_newline_mem_utf8EncodeChar mem] at hc
  exact h hc

/-- A newline is one byte. -/
lemma encode_newline : encode "\n" = [newline] := by decide +kernel

/-- No byte of a text without newlines is one, as a test of each byte. -/
lemma ne_newline_of_mem_encode {s : String} (h : '\n' ∉ s.toList) :
    ∀ b ∈ encode s, (b != newline) = true := by
  intro b hb
  refine bne_iff_ne.mpr ?_
  rintro rfl
  exact newline_not_mem_encode h hb

/-- A text without newlines and the newline behind it are the first line. -/
lemma takeLine_encode {s : String} (h : '\n' ∉ s.toList) (rest : List UInt8) :
    takeLine (encode (s ++ "\n") ++ rest) = (encode (s ++ "\n"), rest) := by
  have none := ne_newline_of_mem_encode h
  rw [encode_append, encode_newline, List.append_assoc, takeLine, List.takeWhile_append_of_pos none,
    List.dropWhile_append_of_pos none]
  simp

/-- A text without newlines and the newline behind it are the first of the lines. -/
lemma lines_encode {s : String} (h : '\n' ∉ s.toList) (rest : List UInt8) :
    lines (encode (s ++ "\n") ++ rest) = encode (s ++ "\n") :: lines rest := by
  have ne : encode (s ++ "\n") ++ rest ≠ [] := by
    rw [encode_append, encode_newline]
    simp
  rw [lines_eq_takeLine ne, takeLine_encode h]

/-- The texts on the lines of a byte string, without the newlines. -/
def texts (bytes : List UInt8) : List String :=
  (lines bytes).filterMap fun line => decode? (line.takeWhile (· != newline))

/-- Texts without newlines, written a line each, are found again. -/
lemma texts_flatMap_encode (ts : List String) (h : ∀ t ∈ ts, '\n' ∉ t.toList) :
    texts (ts.flatMap fun t => encode (t ++ "\n")) = ts := by
  induction ts with
  | nil => rfl
  | cons t ts ih =>
    have none := h t List.mem_cons_self
    have line : (encode (t ++ "\n")).takeWhile (· != newline) = encode t := by
      rw [encode_append, encode_newline,
        List.takeWhile_append_of_pos (ne_newline_of_mem_encode none)]
      simp
    rw [List.flatMap_cons, texts, lines_encode none, List.filterMap_cons, line, decode?_encode]
    exact congrArg (t :: ·) (ih fun t' ht => h t' (List.mem_cons_of_mem t ht))

end TypedStack.Text
