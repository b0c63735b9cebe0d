import TypedStack.Proofs.Lines
import TypedStack.Proofs.Progress

/-!
# Traces

All steps that a machine takes until it halts, going on behind those that fail. A step that does not
halt the machine has read at least one line, whether it succeeds or fails, so a machine over a
source of `N` lines halts after at most `N + 1` steps.
-/

namespace TypedStack

/-- A text has no more lines than bytes. -/
lemma Text.length_lines_le (bytes : List UInt8) : (lines bytes).length ≤ bytes.length := by
  induction bytes with
  | nil => exact Nat.le_refl 0
  | cons b bytes ih =>
    rw [lines]
    split
    · exact Nat.succ_le_succ ih
    · split
      · exact Nat.succ_le_succ (Nat.zero_le _)
      · next h =>
        rw [h] at ih
        exact Nat.le_succ_of_le ih

/-- A source of `N` lines, some of which may have been read. A text that cannot be read has no
number of lines. -/
inductive Source.HasLines (N : Nat) : Source → Prop where
  | program {p : Program} : p.line + p.rest.length = N → HasLines N (.program p)
  | listing {l : Listing} : l.line + (Text.lines l.rest).length = N → HasLines N (.listing l)

namespace Listing

/-- A pull loses no line, and reads one unless it says `exit`. -/
lemma pull_lines (mode : Mode) (bytes : List UInt8) (line : Nat) :
    let r := pull mode bytes line
    r.source.line + (Text.lines r.source.rest).length = line + (Text.lines bytes).length ∧
      (r.result = .ok .exit ∨ line < r.source.line) := by
  have taken {b : UInt8} {bs : List UInt8} (line : Nat) :
      line + 1 + (Text.lines (Text.takeLine (b :: bs)).2).length =
        line + (Text.lines (b :: bs)).length := by
    rw [Text.lines_eq_takeLine (List.cons_ne_nil b bs), List.length_cons, Nat.add_assoc,
      Nat.add_comm 1]
  fun_induction pull mode bytes line with
  | case1 line => exact ⟨rfl, .inl rfl⟩
  | case2 line b bs rest _ ih =>
    obtain ⟨total, ends | reads⟩ := ih
    · exact ⟨total.trans (taken line), .inl ends⟩
    · exact ⟨total.trans (taken line), .inr (Nat.lt_of_succ_lt reads)⟩
  | case3 line b bs rest _ => exact ⟨taken line, .inl rfl⟩
  | case4 line b bs rest i _ => exact ⟨taken line, .inr (Nat.lt_succ_self line)⟩
  | case5 line b bs rest e _ => exact ⟨taken line, .inr (Nat.lt_succ_self line)⟩

/-- A listing loses no line, and reads one unless it says `exit`. -/
lemma next_lines (l : Listing) :
    l.next.source.line + (Text.lines l.next.source.rest).length =
      l.line + (Text.lines l.rest).length ∧
      (l.next.result = .ok .exit ∨ l.line < l.next.source.line) := by
  obtain ⟨mode, rest, line, finished⟩ := l
  cases finished with
  | true => exact ⟨rfl, .inl rfl⟩
  | false => exact pull_lines mode rest line

end Listing

namespace Source.HasLines

variable {s : Source} {N : Nat}

/-- No more lines are counted than there are. -/
lemma line_le (lines : s.HasLines N) : s.line ≤ N := by
  cases lines with
  | program total => exact Nat.le.intro total
  | listing total => exact Nat.le.intro total

/-- The lines that are not counted yet are still to be read. -/
lemma le_line_add_remaining (lines : s.HasLines N) : N ≤ s.line + s.remaining := by
  cases lines with
  | program total => exact Nat.le_of_eq total.symm
  | @listing l total =>
    rw [← total]
    exact Nat.add_le_add_left (Text.length_lines_le l.rest) l.line

/-- No pull loses a line, and every pull but that of an `exit` reads one. -/
lemma next (lines : s.HasLines N) :
    s.next.source.HasLines N ∧
      ((∃ i, s.next.result = .ok i ∧ i.opcode = .exit) ∨ s.line < s.next.source.line) := by
  cases lines with
  | @program p total =>
    obtain ⟨rest, line⟩ := p
    cases rest with
    | nil => exact ⟨.program total, .inl ⟨.exit, rfl, rfl⟩⟩
    | cons i rest =>
      refine ⟨.program ?_, .inr (Nat.lt_succ_self line)⟩
      rw [← total]
      exact Nat.succ_add_eq_add_succ line rest.length
  | @listing l total =>
    obtain ⟨same, ends | reads⟩ := l.next_lines
    · exact ⟨.listing (same.trans total), .inl ⟨.exit, ends, rfl⟩⟩
    · exact ⟨.listing (same.trans total), .inr reads⟩

end Source.HasLines

namespace Machine

/-- The steps of a machine until it halts, each with an output of its own. -/
inductive Traces : Machine → List (Step Buffer) → Prop where
  | halted {m : Machine} : m.halted = true → Traces m []
  | step {m : Machine} {steps : List (Step Buffer)} :
    m.halted = false → Traces (m.step Buffer.unlimited).machine steps →
      Traces m (m.step Buffer.unlimited :: steps)

/-- The machine behind some of its steps. -/
def behind (m : Machine) (steps : List (Step Buffer)) : Machine :=
  (steps.getLast?.map Step.machine).getD m

/-- Behind the first step, the others are steps of the machine that it leaves. -/
lemma behind_cons (m : Machine) (step : Step Buffer) (steps : List (Step Buffer)) :
    m.behind (step :: steps) = step.machine.behind steps := by
  rw [behind, behind, List.getLast?_cons]
  cases steps.getLast? with
  | none => rfl
  | some last => rfl

variable {σ : Type} [Sink σ] {m : Machine} {steps : List (Step Buffer)} {N : Nat}

/-- A step loses no line; if it does not halt the machine, it reads one. -/
lemma step_lines (lines : m.source.HasLines N) (out : σ) :
    (m.step out).machine.source.HasLines N ∧
      ((m.step out).machine.halted = true ∧ (m.step out).error = none ∨
        m.line < (m.step out).machine.line) := by
  obtain ⟨next, ends | reads⟩ := lines.next
  · obtain ⟨i, h, hop⟩ := ends
    rw [step_of_pull_ok h]
    simp only [Effect.ofInstruction, hop]
    exact ⟨next, .inl ⟨Bool.or_true _, rfl⟩⟩
  · cases h : m.source.next.result with
    | error e =>
      rw [step_of_pull_error h]
      exact ⟨next, .inr reads⟩
    | ok i =>
      rw [step_of_pull_ok h]
      exact ⟨next, .inr reads⟩

/-- Enough steps halt the machine. -/
lemma traces_traceSteps {count : Nat} (lines : m.source.HasLines N)
    (enough : m.halted = true ∨ N < m.line + count) :
    Traces m (traceSteps count m) := by
  induction count generalizing m with
  | zero =>
    rcases enough with halted | enough
    · exact .halted halted
    · exact absurd lines.line_le (Nat.not_le.mpr enough)
  | succ count ih =>
    rw [traceSteps]
    split
    · next halted => exact .halted halted
    · next running =>
      have running := Bool.eq_false_iff.mpr running
      have enough := enough.resolve_left (Bool.eq_false_iff.mp running)
      obtain ⟨next, ⟨halted, -⟩ | reads⟩ := step_lines lines Buffer.unlimited
      · exact .step running (ih next (.inl halted))
      · exact .step running (ih next (.inr (by omega)))

/-- The steps that a machine takes with enough of them allowed are all it takes. -/
lemma traces_trace (lines : m.source.HasLines N) : Traces m m.trace :=
  traces_traceSteps lines (.inr (Nat.lt_succ_of_le lines.le_line_add_remaining))

namespace Traces

/-- Behind all its steps a machine is halted. -/
lemma halted_behind (traces : Traces m steps) : (m.behind steps).halted = true := by
  induction traces with
  | halted halted => exact halted
  | step _ _ ih =>
    rw [behind_cons]
    exact ih

/-- There is at most one step for each line, and one for the end. -/
lemma length_le (traces : Traces m steps) (lines : m.source.HasLines N)
    (running : m.halted = false) :
    steps.length + m.line ≤ N + 1 := by
  induction traces with
  | halted halted => cases running.symm.trans halted
  | @step m steps _ rest ih =>
    have bound := lines.line_le
    obtain ⟨next, progress⟩ := step_lines lines Buffer.unlimited
    cases h : (m.step Buffer.unlimited).machine.halted with
    | true =>
      cases rest with
      | halted _ =>
        rw [List.length_singleton, Nat.add_comm]
        exact Nat.succ_le_succ bound
      | step running' _ => cases h.symm.trans running'
    | false =>
      have reads := progress.resolve_left fun ends => by cases h.symm.trans ends.1
      have rest := ih next h
      rw [List.length_cons]
      omega

/-- Failures are at lines that there are. -/
lemma failure_line (traces : Traces m steps) (lines : m.source.HasLines N) :
    ∀ failure ∈ steps.filterMap Step.failure?, 1 ≤ failure.line ∧ failure.line ≤ N := by
  induction traces with
  | halted _ =>
    intro failure h
    cases h
  | @step m steps _ _ ih =>
    obtain ⟨next, progress⟩ := step_lines lines Buffer.unlimited
    rw [List.filterMap_cons]
    split
    · exact ih next
    · next first failed =>
      obtain ⟨e, he, rfl⟩ := Option.map_eq_some_iff.mp failed
      have reads := progress.resolve_left fun ends => by cases he.symm.trans ends.2
      intro failure h
      cases h with
      | head => exact ⟨Nat.lt_of_le_of_lt (Nat.zero_le _) reads, next.line_le⟩
      | tail _ h => exact ih next failure h

end Traces

end Machine

end TypedStack
