import Mathlib.Data.List.TakeWhile
import TypedStack.Text.Basic

/-!
# Words and blanks

The words of a text in terms of how it is put together from blanks and other characters, and the
text without the blanks around it. A text has one word exactly if trimming leaves that word.
-/

namespace TypedStack.Text

/-- The text without the blanks at its ends. -/
def trim (cs : List Char) : List Char := ((cs.dropWhile isBlank).reverse.dropWhile isBlank).reverse

/-- A word has characters and none of them is blank. -/
structure IsWord (w : List Char) : Prop where
  ne_nil : w ≠ []
  not_blank : ∀ c ∈ w, isBlank c = false

variable {cs w pre post : List Char} {b : Char}

/-- A word can be recognised by evaluation. -/
lemma IsWord.of_all (ne : w.isEmpty = false) (all : w.all (!isBlank ·) = true) : IsWord w :=
  ⟨List.isEmpty_eq_false_iff.mp ne, fun c hc => by simpa using List.all_eq_true.mp all c hc⟩

/-- A blank divides the words before it from those behind. -/
lemma words_append_blank (cs ds : List Char) (hb : isBlank b = true) :
    words (cs ++ b :: ds) = words cs ++ words ds := by
  rw [words, List.splitOnP_append_cons cs ds hb, List.filter_append]
  rfl

/-- A blank in front makes no difference. -/
lemma words_cons_blank (cs : List Char) (hb : isBlank b = true) : words (b :: cs) = words cs :=
  words_append_blank [] cs hb

/-- A word is the only word in it. -/
lemma words_of_isWord (hw : IsWord w) : words w = [w] := by
  rw [words, List.splitOnP_eq_singleton hw.not_blank]
  simp [hw.ne_nil]

/-- There are no words in blanks. -/
lemma words_of_blanks (blanks : ∀ c ∈ cs, isBlank c = true) : words cs = [] := by
  induction cs with
  | nil => rfl
  | cons c cs ih =>
    rw [words_cons_blank cs (blanks c List.mem_cons_self)]
    exact ih fun c hc => blanks c (List.mem_cons_of_mem _ hc)

/-- Blanks in front make no difference. -/
lemma words_blanks_append (cs : List Char) (blanks : ∀ c ∈ pre, isBlank c = true) :
    words (pre ++ cs) = words cs := by
  induction pre with
  | nil => rfl
  | cons c pre ih =>
    rw [List.cons_append, words_cons_blank _ (blanks c List.mem_cons_self)]
    exact ih fun c hc => blanks c (List.mem_cons_of_mem _ hc)

/-- Blanks behind make no difference. -/
lemma words_append_blanks (cs : List Char) (blanks : ∀ c ∈ post, isBlank c = true) :
    words (cs ++ post) = words cs := by
  cases post with
  | nil => rw [List.append_nil]
  | cons c post =>
    rw [words_append_blank cs post (blanks c List.mem_cons_self),
      words_of_blanks fun c hc => blanks c (List.mem_cons_of_mem _ hc), List.append_nil]

/-- A text that does not begin with a blank is one word, or one word and a blank before the rest. -/
lemma exists_isWord (cs : List Char) (hb : isBlank b = false) :
    ∃ w, IsWord w ∧ (b :: cs = w ∨ ∃ c ds, isBlank c = true ∧ b :: cs = w ++ c :: ds) := by
  induction cs generalizing b with
  | nil => exact ⟨[b], ⟨nofun, by simpa using hb⟩, .inl rfl⟩
  | cons c cs ih =>
    cases hc : isBlank c with
    | true => exact ⟨[b], ⟨nofun, by simpa using hb⟩, .inr ⟨c, cs, hc, rfl⟩⟩
    | false =>
      obtain ⟨w, hw, shape⟩ := ih hc
      refine ⟨b :: w, ⟨nofun, by simpa [hb] using hw.not_blank⟩, ?_⟩
      rcases shape with rfl | ⟨c', ds, hc', shape⟩
      · exact .inl rfl
      · exact .inr ⟨c', ds, hc', congrArg (b :: ·) shape⟩

/-- A text without words is blank. -/
lemma blanks_of_words_eq_nil (none : words cs = []) : ∀ c ∈ cs, isBlank c = true := by
  induction cs with
  | nil => nofun
  | cons b cs ih =>
    cases hb : isBlank b with
    | true =>
      rw [words_cons_blank cs hb] at none
      intro c hc
      rcases List.mem_cons.mp hc with rfl | hc
      · exact hb
      · exact ih none c hc
    | false =>
      obtain ⟨w, hw, shape | ⟨c, ds, hc, shape⟩⟩ := exists_isWord cs hb
      · rw [shape, words_of_isWord hw] at none
        cases none
      · rw [shape, words_append_blank w ds hc, words_of_isWord hw] at none
        cases none

/-- The texts with one word. -/
lemma words_eq_singleton_iff :
    words cs = [w] ↔
      IsWord w ∧
        ∃ pre post, (∀ c ∈ pre, isBlank c = true) ∧ (∀ c ∈ post, isBlank c = true) ∧
          cs = pre ++ w ++ post := by
  constructor
  · intro one
    -- blanks in front are taken off one by one; the first other character begins the word
    induction cs with
    | nil => cases one
    | cons b cs ih =>
      cases hb : isBlank b with
      | true =>
        rw [words_cons_blank cs hb] at one
        obtain ⟨hw, pre, post, hpre, hpost, rfl⟩ := ih one
        exact ⟨hw, b :: pre, post, by simpa [hb] using hpre, hpost, rfl⟩
      | false =>
        obtain ⟨w', hw, shape | ⟨c, ds, hc, shape⟩⟩ := exists_isWord cs hb
        · rw [shape, words_of_isWord hw] at one
          cases one
          exact ⟨hw, [], [], nofun, nofun, by rw [shape, List.nil_append, List.append_nil]⟩
        · rw [shape, words_append_blank w' ds hc, words_of_isWord hw] at one
          obtain ⟨rfl, rest⟩ := List.cons.inj one
          have blanks := blanks_of_words_eq_nil rest
          exact ⟨hw, [], c :: ds, nofun, by simpa [hc] using blanks, shape⟩
  · rintro ⟨hw, pre, post, hpre, hpost, rfl⟩
    rw [words_append_blanks _ hpost, words_blanks_append _ hpre, words_of_isWord hw]

/-- Trimming takes off blanks only. -/
lemma eq_append_trim_append (cs : List Char) :
    ∃ pre post, (∀ c ∈ pre, isBlank c = true) ∧ (∀ c ∈ post, isBlank c = true) ∧
      cs = pre ++ trim cs ++ post := by
  let front := cs.dropWhile isBlank
  refine ⟨cs.takeWhile isBlank, (front.reverse.takeWhile isBlank).reverse, ?_, ?_, ?_⟩
  · exact fun c hc => List.mem_takeWhile_imp hc
  · exact fun c hc => List.mem_takeWhile_imp (List.mem_reverse.mp hc)
  · have back : trim cs ++ (front.reverse.takeWhile isBlank).reverse = front := by
      rw [trim, ← List.reverse_append, List.takeWhile_append_dropWhile, List.reverse_reverse]
    rw [List.append_assoc, back, List.takeWhile_append_dropWhile]

/-- The blanks in front of a word can be dropped. -/
lemma dropWhile_blanks_append (blanks : ∀ c ∈ pre, isBlank c = true) (hw : IsWord w)
    (cs : List Char) :
    (pre ++ w ++ cs).dropWhile isBlank = w ++ cs := by
  obtain ⟨b, w, rfl⟩ := List.exists_cons_of_ne_nil hw.ne_nil
  rw [List.append_assoc, List.dropWhile_append_of_pos blanks, List.cons_append,
    List.dropWhile_cons_of_neg (Bool.eq_false_iff.mp (hw.not_blank b List.mem_cons_self))]

/-- A word is a word backwards, too. -/
lemma IsWord.reverse (hw : IsWord w) : IsWord w.reverse :=
  ⟨by simpa using hw.ne_nil, fun c hc => hw.not_blank c (List.mem_reverse.mp hc)⟩

/-- A text has one word if trimming leaves that word. -/
theorem words_eq_singleton_iff_trim (hw : IsWord w) : words cs = [w] ↔ trim cs = w := by
  rw [words_eq_singleton_iff]
  constructor
  · rintro ⟨-, pre, post, hpre, hpost, rfl⟩
    have hpost : ∀ c ∈ post.reverse, isBlank c = true :=
      fun c hc => hpost c (List.mem_reverse.mp hc)
    have back := dropWhile_blanks_append hpost hw.reverse []
    rw [List.append_nil, List.append_nil] at back
    rw [trim, dropWhile_blanks_append hpre hw, List.reverse_append, back, List.reverse_reverse]
  · rintro rfl
    exact ⟨hw, eq_append_trim_append cs⟩

end TypedStack.Text
