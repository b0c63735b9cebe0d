import TypedStack.Proofs.Agreement
import TypedStack.Proofs.Written

/-!
# Programs and their texts

A program in memory and the listing of its text are two sources that keep their places in different
ways: one counts the instructions it has given, the other the lines it has read, and marks its end.
Machines that run them cannot be told apart.
-/

namespace TypedStack

namespace Listing

variable {mode : Mode} {bytes : List UInt8} {line : Nat} {i : Instruction}

/-- A line with an instruction is answered by it. -/
lemma pull_of_instruction (ne : bytes ≠ [])
    (h : LineMeaning.ofBytes mode (Text.takeLine bytes).1 = .instruction i) :
    pull mode bytes line =
      ⟨.ok i, ⟨mode, (Text.takeLine bytes).2, line + 1, i.opcode == .exit⟩,
        [.parsed (line + 1) i.opcode]⟩ := by
  obtain ⟨b, bs, rfl⟩ := List.exists_cons_of_ne_nil ne
  rw [pull]
  simp only [h]

/-- The line of a written instruction means that instruction. -/
lemma ofBytes_written (h : i.IsWritable) :
    LineMeaning.ofBytes .file (Text.encode (i.written ++ "\n")) = .instruction i := by
  rw [LineMeaning.ofBytes, Text.decode?_encode]
  simp [LineMeaning.ofText, Instruction.parse_written h]

/-- The text of a program gives its first instruction and leaves the text of the others. -/
lemma pull_text (h : i.IsWritable) (is : List Instruction) (line : Nat) :
    pull .file (Text.encode (Instruction.text (i :: is))) line =
      ⟨.ok i, ⟨.file, Text.encode (Instruction.text is), line + 1, i.opcode == .exit⟩,
        [.parsed (line + 1) i.opcode]⟩ := by
  have text : Text.encode (Instruction.text (i :: is)) =
      Text.encode (i.written ++ "\n") ++ Text.encode (Instruction.text is) := by
    rw [← Text.encode_append]
    simp [Instruction.text]
  have first :=
    Text.takeLine_encode (Instruction.newline_not_mem_written h) (Text.encode (Instruction.text is))
  have ne : Text.encode (i.written ++ "\n") ++ Text.encode (Instruction.text is) ≠ [] := by
    simp [Text.encode_append, Text.encode_newline]
  rw [text, pull_of_instruction ne (by rw [first]; exact ofBytes_written h), first]

/-- The text of no instructions ends at once. -/
lemma next_text_nil (line : Nat) :
    next ⟨.file, Text.encode (Instruction.text []), line, false⟩ =
      ⟨.ok .exit, ⟨.file, [], line, true⟩, []⟩ := by
  have empty : Text.encode (Instruction.text []) = [] := by decide +kernel
  rw [empty, next, if_neg nofun, pull]

/-- The text of instructions gives the first of them, and then the text of the others. -/
lemma next_text_cons (h : i.IsWritable) (is : List Instruction) (line : Nat) :
    next ⟨.file, Text.encode (Instruction.text (i :: is)), line, false⟩ =
      ⟨.ok i, ⟨.file, Text.encode (Instruction.text is), line + 1, i.opcode == .exit⟩,
        [.parsed (line + 1) i.opcode]⟩ := by
  rw [next, if_neg nofun, pull_text h]

end Listing

/-- What is left of a program, and what is left of its text at the same line. -/
inductive IsTextOf : Source → Source → Prop where
  | intro {is : List Instruction} {line : Nat} :
    (∀ i ∈ is, i.IsWritable) →
    IsTextOf (.program ⟨is, line⟩) (.listing ⟨.file, Text.encode (Instruction.text is), line,
      false⟩)

/-- A program and its text answer alike, pull by pull. -/
lemma isAgreement_isTextOf : Source.IsAgreement IsTextOf where
  line related := by
    cases related
    rfl
  result related := by
    obtain @⟨is, line, writable⟩ := related
    cases is with
    | nil => simp only [Source.next, Listing.next_text_nil, Pull.map, Program.next]
    | cons i is =>
      simp only [Source.next, Listing.next_text_cons (writable i List.mem_cons_self), Pull.map,
        Program.next]
  line_next related := by
    obtain @⟨is, line, writable⟩ := related
    cases is with
    | nil => simp only [Source.next, Listing.next_text_nil, Pull.map, Program.next, Source.line]
    | cons i is =>
      simp only [Source.next, Listing.next_text_cons (writable i List.mem_cons_self), Pull.map,
        Program.next, Source.line]
  next related goesOn := by
    obtain @⟨is, line, writable⟩ := related
    cases is with
    -- behind the last instruction both answer `exit`, and only the text marks its end
    | nil => exact absurd rfl (goesOn .exit rfl)
    | cons i is =>
      have hop : i.opcode ≠ .exit := goesOn i rfl
      simp only [Source.next, Listing.next_text_cons (writable i List.mem_cons_self), Pull.map,
        Program.next, beq_false_of_ne hop]
      exact .intro fun i hi => writable i (List.mem_cons_of_mem _ hi)

/-- A machine with a program and one with the text of the program are the same from outside: over
any number of runs, with failures and resumptions, they end alike, leave the same output and error
report, and have the same stack and state. -/
theorem runs_program_eq_runs_text {σ τ : Type} [Sink σ] [Sink τ] (is : List Instruction)
    (writable : ∀ i ∈ is, i.IsWritable) (limit : Option Nat) (count : Nat) (out : σ) (err : τ) :
    (Machine.runs count (.start (.program (.ofList is)) limit) out err).map observe =
      (Machine.runs count
        (.start (.listing (.ofBytes .file (Text.encode (Instruction.text is)))) limit) out err).map
        observe := by
  have inStep : InStep IsTextOf (.start (.program (.ofList is)) limit)
      (.start (.listing (.ofBytes .file (Text.encode (Instruction.text is)))) limit) :=
    ⟨rfl, rfl, rfl, fun _ => .intro writable⟩
  exact inStep.runs isAgreement_isTextOf count out err

/-- A program that fails in its third line, is resumed and exits before its end. -/
theorem runs_text_of_failing_division :
    let is : List Instruction :=
      [⟨.push, some ⟨.int8, "-7"⟩⟩, ⟨.push, some ⟨.double, "0.0"⟩⟩, ⟨.binary .div, none⟩,
        ⟨.dump, none⟩, ⟨.exit, none⟩, ⟨.pop, none⟩]
    (∀ i ∈ is, i.IsWritable) ∧
      (Machine.runs 3 (.start (.program (.ofList is)) (some 2)) Buffer.unlimited
        Buffer.unlimited).map observe =
        (Machine.runs 3
          (.start (.listing (.ofBytes .file (Text.encode (Instruction.text is)))) (some 2))
          Buffer.unlimited Buffer.unlimited).map observe := by
  intro is
  have writable : ∀ i ∈ is, i.IsWritable := by
    intro i hi
    simp only [is, List.mem_cons, List.not_mem_nil, or_false] at hi
    rcases hi with rfl | rfl | rfl | rfl | rfl | rfl
    · exact ⟨rfl, fun l hl => ⟨l, by cases hl; rfl⟩⟩
    · exact ⟨rfl, fun l hl => ⟨l, by cases hl; rfl⟩⟩
    all_goals exact ⟨rfl, nofun⟩
  exact ⟨writable,
    runs_program_eq_runs_text is writable (some 2) 3 Buffer.unlimited Buffer.unlimited⟩

end TypedStack
