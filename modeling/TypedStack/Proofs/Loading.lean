import TypedStack.Proofs.Limit
import TypedStack.Proofs.Progress

/-!
# Instructions from texts

A listing hands over an instruction only if its literal is in place and stands for a finite number
of its kind. A machine over a listing therefore never meets an operand that it cannot read, however
often it is resumed.
-/

namespace TypedStack

/-- There is a literal exactly if the operation uses one, and it stands for a finite number of its
kind. -/
structure Instruction.IsSound (i : Instruction) : Prop where
  carries : i.literal.isSome = true ↔ i.opcode = .push ∨ i.opcode = .assert
  finite {l : Literal} :
    i.literal = some l → ∃ x, l.operand = .ok x ∧ x.kind = l.kind ∧ x.isFinite = true

/-- Pushes and assertions are the instructions with a literal. -/
lemma Opcode.takesLiteral_iff {op : Opcode} :
    op.takesLiteral = true ↔ op = .push ∨ op = .assert := by
  cases op <;> simp [takesLiteral]

namespace Literal

/-- A literal stands for a number of its own kind. -/
lemma kind_of_operand {l : Literal} {x : Operand} (hx : l.operand = .ok x) : x.kind = l.kind := by
  unfold operand Operand.read at hx
  split at hx
  · cases hx
    rfl
  · cases hx

/-- A value is accepted only if its literal stands for a finite number. -/
lemma finite_of_parse {word : String} {l : Literal} (hl : parse word = .ok l) :
    ∃ x, l.operand = .ok x ∧ x.kind = l.kind ∧ x.isFinite = true := by
  unfold parse at hl
  split at hl
  · cases hl
  · split at hl
    · next inRange =>
      cases hl
      unfold fits at inRange
      split at inRange
      · next x hx => exact ⟨x, hx, kind_of_operand hx, inRange⟩
      · cases inRange
    · cases hl

end Literal

namespace Instruction

/-- The instruction behind the end of a text is sound. -/
lemma isSound_exit : IsSound .exit where
  carries := by simp [exit]
  finite h := by cases h

/-- A line is accepted only if its instruction is sound. -/
lemma isSound_of_parse {line : String} {i : Instruction} (hi : parse line = .ok (some i)) :
    i.IsSound where
  carries := by rw [isSome_literal_of_parse hi, Opcode.takesLiteral_iff]
  finite := by
    obtain ⟨arguments, -, hi⟩ := parse_ok hi
    intro l hl
    rcases parseArguments_ok hi with ⟨-, -, he⟩ | ⟨-, word, l', -, parsed, he⟩
    · rw [he] at hl
      cases hl
    · rw [he] at hl
      cases hl
      exact Literal.finite_of_parse parsed

/-- The operand of a sound instruction can be read, if it uses one. -/
lemma IsSound.operand_ok {i : Instruction} (sound : i.IsSound)
    (takes : i.opcode.takesLiteral = true) :
    ∃ x, i.operand = .ok x := by
  obtain ⟨l, hl⟩ :=
    Option.isSome_iff_exists.mp (sound.carries.mpr (Opcode.takesLiteral_iff.mp takes))
  obtain ⟨x, hx, -⟩ := sound.finite hl
  refine ⟨x, ?_⟩
  rw [operand, hl]
  exact hx

end Instruction

/-- A line stands for no instruction that is not sound. -/
lemma LineMeaning.isSound_of_ofBytes {mode : Mode} {line : List UInt8} {i : Instruction}
    (h : ofBytes mode line = .instruction i) : i.IsSound := by
  unfold ofBytes at h
  split at h
  · unfold ofText at h
    split at h
    · cases h
    · split at h
      · cases h
      · next parsed =>
        cases h
        exact Instruction.isSound_of_parse parsed
      · cases h
  · cases h

namespace Listing

/-- A text hands over sound instructions only. -/
lemma isSound_of_pull {mode : Mode} {bytes : List UInt8} {line : Nat} {i : Instruction}
    (hi : (pull mode bytes line).result = .ok i) : i.IsSound := by
  fun_induction pull mode bytes line with
  | case1 line =>
    cases hi
    exact Instruction.isSound_exit
  | case2 line b bs rest _ ih => exact ih hi
  | case3 line b bs rest _ =>
    cases hi
    exact Instruction.isSound_exit
  | case4 line b bs rest i' meaning =>
    cases hi
    exact LineMeaning.isSound_of_ofBytes meaning
  | case5 line b bs rest e _ => cases hi

/-- A listing hands over sound instructions only. -/
lemma isSound_of_next {l : Listing} {i : Instruction} (hi : l.next.result = .ok i) : i.IsSound := by
  obtain ⟨mode, rest, line, finished⟩ := l
  cases finished with
  | true =>
    cases hi
    exact Instruction.isSound_exit
  | false => exact isSound_of_pull hi

end Listing

/-! ## Machines over listings -/

/-- The error is about an operand that cannot be made: its text is no number of the kind, or there
is no such kind. -/
def Error.isOfOperand : Error → Bool
  | .invalidLiteral .. | .unknownTag _ => true
  | _ => false

namespace Effect

variable {σ : Type} [Sink σ] {i : Instruction} {s s' : Stack} {out out' : σ} {x : Operand}
  {e : Error}

/-- A push with an operand fails only at the limit. -/
lemma error_of_push (hop : i.opcode = .push) (hx : i.operand = .ok x)
    (he : (ofInstruction i s out).error = some e) :
    ∃ n, s.limit = some n ∧ e = .stackOverflow n := by
  simp only [ofInstruction, hop, hx, push] at he
  rcases s.hasRoom_or_full with room | ⟨n, hn, full⟩
  · rw [Stack.push_of_hasRoom room] at he
    cases he
  · rw [Stack.push_of_full hn full] at he
    cases he
    exact ⟨n, hn, rfl⟩

/-- An assertion with an operand fails only because it does not hold. -/
lemma error_of_assert (hop : i.opcode = .assert) (hx : i.operand = .ok x)
    (he : (ofInstruction i s out).error = some e) :
    ∃ expected actual, e = .assertionFailed expected actual := by
  simp only [ofInstruction, hop, hx, assert] at he
  split at he
  · cases he
  · cases he
    exact ⟨_, _, rfl⟩

/-- A sound instruction never fails for its operand. -/
lemma Outcome.isOfOperand_eq_false (outcome : Outcome i s out s' out' (some e))
    (sound : i.IsSound) :
    e.isOfOperand = false := by
  cases outcome with
  | unreadable takes he =>
    obtain ⟨x, hx⟩ := sound.operand_ok takes
    cases he.symm.trans hx
  | faulted _ _ he =>
    obtain ⟨fault, rfl⟩ := Operand.apply_error he
    cases fault <;> rfl
  | full | refuted | underflow | notPrintable | refused => rfl

end Effect

/-- No error of reading is about an operand that cannot be made. -/
lemma Error.isOfOperand_of_isOfReading {e : Error} (reading : e.isOfReading = true) :
    e.isOfOperand = false := by
  cases e with
  | invalidLiteral | unknownTag => cases reading
  | _ => rfl

/-- There are two errors about an operand that cannot be made. -/
lemma Error.ne_of_isOfOperand {e : Error} (h : e.isOfOperand = false) :
    (∀ kind text, e ≠ .invalidLiteral kind text) ∧ ∀ tag, e ≠ .unknownTag tag := by
  constructor
  · rintro kind text rfl
    cases h
  · rintro tag rfl
    cases h

namespace Machine

variable {σ τ : Type} [Sink σ] [Sink τ] {m : Machine} {l : Listing} {out : σ} {i : Instruction}
  {e : Error}

/-- A machine over a listing fetches sound instructions only. -/
lemma isSound_of_next (source : m.source = .listing l) (h : m.source.next.result = .ok i) :
    i.IsSound := by
  rw [source] at h
  exact Listing.isSound_of_next h

/-- A step over a listing never fails for its operand. -/
lemma isOfOperand_of_step (source : m.source = .listing l) (he : (m.step out).error = some e) :
    e.isOfOperand = false := by
  cases h : m.source.next.result with
  | error e' =>
    rw [step_of_pull_error h] at he
    cases he
    exact Error.isOfOperand_of_isOfReading (Source.isOfReading_of_next h)
  | ok i =>
    rw [step_of_pull_ok h] at he
    exact (Effect.outcome_of_error he).isOfOperand_eq_false (isSound_of_next source h)

/-- A step goes on in the same listing. -/
lemma listing_step (source : m.source = .listing l) :
    (m.step out).machine.source = .listing l.next.source := by
  rw [source_step, source]
  rfl

/-- A machine over a listing stays one, and keeps its limit. -/
lemma Reachable.listing {limit : Option Nat} (reached : Reachable (start (.listing l) limit) m) :
    (∃ l', m.source = .listing l') ∧ m.stack.limit = limit := by
  induction reached with
  | refl => exact ⟨⟨l, rfl⟩, rfl⟩
  | @step m _ _ out _ _ ih =>
    obtain ⟨⟨l', source⟩, hlimit⟩ := ih
    exact ⟨⟨l'.next.source, listing_step source⟩, limit_step.trans hlimit⟩

/-- Every instruction from a listing carries a literal exactly if it pushes or compares, and the
literal stands for a finite number of its kind. So in all runs over a text, however often they are
resumed, a push fails only because the stack is full and a comparison only because it does not hold,
and no failure is about an operand that cannot be made. -/
theorem listing_operands_sound (mode : Mode) (bytes : List UInt8) (limit : Option Nat) (out : σ)
    (err : τ) :
    let m₀ := start (.listing (.ofBytes mode bytes)) limit
    (∀ (l : Listing) i, l.next.result = .ok i →
      (i.literal.isSome = true ↔ i.opcode = .push ∨ i.opcode = .assert) ∧
      ∀ literal, i.literal = some literal →
        ∃ x, literal.operand = .ok x ∧ x.kind = literal.kind ∧ x.isFinite = true) ∧
    (∀ m, Reachable m₀ m → ∀ (out : σ) e, (m.step out).error = some e →
      (∀ i, (m.step out).fetched = some i →
        (i.opcode = .push → ∃ n, limit = some n ∧ e = .stackOverflow n) ∧
        (i.opcode = .assert → ∃ expected actual, e = .assertionFailed expected actual)) ∧
      (∀ kind text, e ≠ .invalidLiteral kind text) ∧ ∀ tag, e ≠ .unknownTag tag) ∧
    (∀ count, ∀ result ∈ m₀.runs count out err, ∀ failure, result.1.failure = some failure →
      (∀ kind text, failure.error ≠ .invalidLiteral kind text) ∧
      ∀ tag, failure.error ≠ .unknownTag tag) := by
  refine ⟨fun l i hi => ?_, fun m reached out e he => ?_, fun count result hr failure hf => ?_⟩
  · have sound := Listing.isSound_of_next hi
    exact ⟨sound.carries, fun _ => sound.finite⟩
  · obtain ⟨⟨l, source⟩, hlimit⟩ := reached.listing
    refine ⟨fun i fetched => ?_, Error.ne_of_isOfOperand (isOfOperand_of_step source he)⟩
    obtain ⟨hi, same, -⟩ := step_of_fetched fetched
    have sound := isSound_of_next source hi
    rw [same] at he
    constructor
    · intro hop
      obtain ⟨x, hx⟩ := sound.operand_ok (Opcode.takesLiteral_iff.mpr (.inl hop))
      rw [← hlimit]
      exact Effect.error_of_push hop hx he
    · intro hop
      obtain ⟨x, hx⟩ := sound.operand_ok (Opcode.takesLiteral_iff.mpr (.inr hop))
      exact Effect.error_of_assert hop hx he
  · apply Error.ne_of_isOfOperand
    -- a run fails by one of its steps, or by a refusal to flush
    have step := Reachable.refl.exists_step_of_runs count out err result hr hf
    rcases step with ⟨m, out, reached, -, failed⟩ | ⟨_, he⟩
    · obtain ⟨⟨l, source⟩, -⟩ := reached.listing
      obtain ⟨e, he, rfl⟩ := Option.map_eq_some_iff.mp failed
      exact isOfOperand_of_step source he
    · rw [he]
      rfl

end Machine

end TypedStack
