import TypedStack.Proofs.BitPattern
import TypedStack.Proofs.Lines
import TypedStack.Proofs.Output
import TypedStack.Proofs.ReadBack

/-!
# Rebuilding stacks

Since an operand is read back from its text, an assertion of this text holds while the operand is on
top of the stack, and pushing the texts of a dump from the last to the first makes the stack that
was dumped.
-/

namespace TypedStack

variable {σ τ : Type} [Sink σ] [Sink τ]

/-! ## Texts without newlines -/

/-- No text of a floating-point number has a newline. -/
lemma Binary.newline_not_mem_text {f : Format} (x : Binary f) : '\n' ∉ x.text.toList := by
  have sign : ∀ {s t}, '\n' ∉ String.toList t → '\n' ∉ (signText s ++ t).toList := by
    intro s t ht
    rw [String.toList_append, List.mem_append, not_or]
    refine ⟨?_, ht⟩
    cases s <;> decide
  cases x with
  | nan =>
    show '\n' ∉ "NaN".toList
    decide
  | infinite s => exact sign (by decide)
  | finite s code =>
    refine sign ?_
    split
    · decide
    · exact Decimal.newline_not_mem_text _

/-- No text of an operand has a newline. -/
lemma Operand.newline_not_mem_text (x : Operand) : '\n' ∉ x.text.toList := by
  obtain ⟨kind, value⟩ := x
  cases kind with
  | integer w => exact Decimal.newline_not_mem_toString (BitVec.toInt value)
  | floating p => exact Binary.newline_not_mem_text value

/-! ## Operands as literals -/

/-- The literal that stands for an operand. -/
def Operand.literal (x : Operand) : Literal := ⟨x.kind, x.text⟩

/-- An operand is read back from its literal. -/
lemma Operand.operand_literal (op : Opcode) (x : Operand) :
    Instruction.operand ⟨op, some x.literal⟩ = .ok x :=
  x.read_text

/-- Pushing the literal of an operand pushes the operand. -/
lemma Effect.ofInstruction_push (x : Operand) (s : Stack) (out : σ) :
    ofInstruction ⟨.push, some x.literal⟩ s out = push x s out := by
  simp only [ofInstruction, x.operand_literal]

/-- What is on top passes an assertion of its own literal. -/
lemma Effect.ofInstruction_assert_top {s : Stack} {x : Operand} (top : s.top? = some x) (out : σ) :
    ofInstruction ⟨.assert, some x.literal⟩ s out = done s out := by
  simp only [ofInstruction, x.operand_literal]
  rw [assert, top]
  exact if_pos rfl

/-! ## Pushing what was dumped -/

/-- A buffer that takes everything takes a whole dump. -/
lemma Effect.dump_unlimited (s : Stack) :
    dump s Buffer.unlimited = done s ⟨s.dumped.flatten.toArray, none, none⟩ := by
  rw [dump, write, Buffer.writeAll_unlimited]
  rfl

/-- The lines of a dump are the texts of the operands, from the top down. -/
lemma Effect.texts_dump (s : Stack) :
    Text.texts (dump s Buffer.unlimited).out.bytes = s.items.map Operand.text := by
  have bytes : (dump s Buffer.unlimited).out.bytes =
      (s.items.map Operand.text).flatMap fun t => Text.encode (t ++ "\n") := by
    rw [dump_unlimited, List.flatMap_map]
    rfl
  rw [bytes]
  refine Text.texts_flatMap_encode _ fun t ht => ?_
  obtain ⟨x, -, rfl⟩ := List.mem_map.mp ht
  exact x.newline_not_mem_text

namespace Stack

/-- The program that pushes texts as numbers of the given kinds, the last one first. -/
def pushes (kinds : List Kind) (texts : List String) : List Instruction :=
  (List.zipWith (fun kind text => ⟨.push, some ⟨kind, text⟩⟩) kinds texts).reverse

/-- The texts of operands are pushed as their literals. -/
lemma pushes_eq (items : List Operand) :
    pushes (items.map Operand.kind) (items.map Operand.text) =
      items.reverse.map fun x => ⟨.push, some x.literal⟩ := by
  rw [pushes, List.zipWith_map, List.zipWith_self, List.map_reverse]
  rfl

end Stack

namespace Machine

/-- Pushing operands onto `s` makes the stack `t` that has them above those of `s`; that there is
such a stack means that there is room for them. -/
lemma quiet_drive_pushes {s t : Stack} (xs : List Operand) (line : Nat) (out : σ)
    (limit : t.limit = s.limit) (items : t.items = xs.reverse ++ s.items) :
    let pushes : List Instruction := xs.map fun x => ⟨.push, some x.literal⟩
    (drive ⟨.program ⟨pushes, line⟩, s, false⟩ out).quiet =
      ⟨⟨.program ⟨[], line + xs.length⟩, t, true⟩, out, none, []⟩ := by
  induction xs generalizing s line with
  | nil =>
    obtain rfl : t = s := Stack.ext limit items
    exact quiet_drive_program_nil
  | cons x xs ih =>
    rw [List.reverse_cons, List.append_assoc, List.singleton_append] at items
    -- `x` is in the stack that is to be made, so there is room for it
    have room : s.HasRoom := by
      intro n hn
      have within := t.within n (limit.trans hn)
      rw [items, List.length_append, List.length_cons] at within
      exact Nat.lt_of_lt_of_le (Nat.lt_succ_self _) (Nat.le_trans (Nat.le_add_left _ _) within)
    have pushed : Effect.ofInstruction ⟨.push, some x.literal⟩ s out =
        .done (s.cons x room) out := by
      rw [Effect.ofInstruction_push, Effect.push, Stack.push_of_hasRoom room]
    have op : Instruction.opcode ⟨.push, some x.literal⟩ ≠ .exit := by
      intro h
      cases h
    have next := ih (s := s.cons x room) (line + 1) limit items
    rw [Nat.add_assoc, Nat.add_comm 1] at next
    exact (quiet_drive_program_of_ok op pushed rfl).trans next

/-- The stack that was dumped is made by pushing the texts of the dump. -/
lemma quiet_drive_dumped (s : Stack) (out : σ) :
    let texts := Text.texts (Effect.dump s Buffer.unlimited).out.bytes
    let program := Stack.pushes (s.items.map Operand.kind) texts
    ((start (.program (.ofList program)) s.limit).drive out).quiet =
      ⟨⟨.program ⟨[], s.size⟩, s, true⟩, out, none, []⟩ := by
  have items : s.items = s.items.reverse.reverse ++ (Stack.empty s.limit).items := by
    rw [List.reverse_reverse]
    exact (List.append_nil _).symm
  have driven :=
    quiet_drive_pushes (s := .empty s.limit) (t := s) s.items.reverse 0 out rfl items
  rw [List.length_reverse, Nat.zero_add] at driven
  intro texts program
  have same : program = s.items.reverse.map fun x => ⟨.push, some x.literal⟩ := by
    rw [← Stack.pushes_eq, ← Effect.texts_dump]
  rw [same]
  exact driven

end Machine

/-- Within a kind, texts tell numbers apart. -/
lemma Operand.value_eq_of_text_eq {k : Kind} {x y : Value k}
    (same : Operand.text ⟨k, x⟩ = Operand.text ⟨k, y⟩) :
    x = y := by
  have read : read k (text ⟨k, x⟩) = .ok ⟨k, x⟩ := read_text ⟨k, x⟩
  rw [same, read_text ⟨k, y⟩] at read
  cases read
  rfl

/-- The operand that a bit pattern stands for. -/
def Operand.ofBits (p : Precision) (v : BitVec p.format.width) : Operand :=
  ⟨.floating p, Binary.ofBits v⟩

/-- The canonical text of a number is read as this number, bit by bit, and not-a-number is read as
not-a-number. So texts tell numbers apart, what is on top of a stack passes an assertion of its own
text, and pushing the texts of a dump from the last to the first makes the stack that was dumped. -/
theorem canonical_text_reads_back :
    (∀ (p : Precision) (v : BitVec p.format.width), ¬ Binary.IsNaN v →
      ∃ x : Binary p.format,
        Operand.read (.floating p) (Operand.ofBits p v).text = .ok ⟨.floating p, x⟩ ∧
        x.bits? = some v) ∧
    (∀ (p : Precision) (v w : BitVec p.format.width), ¬ Binary.IsNaN v → ¬ Binary.IsNaN w →
      ((Operand.ofBits p v).text = (Operand.ofBits p w).text ↔ v = w)) ∧
    (∀ (p : Precision) (v : BitVec p.format.width), Binary.IsNaN v →
      (Operand.ofBits p v).text = "NaN" ∧
        Operand.read (.floating p) "NaN" = .ok ⟨.floating p, Binary.nan⟩ ∧
        Operand.text ⟨.floating p, Binary.nan⟩ = "NaN") ∧
    (∀ (s : Stack) (x : Operand), s.top? = some x → ∀ out : σ,
      Effect.ofInstruction ⟨.assert, some ⟨x.kind, x.text⟩⟩ s out = .done s out) ∧
    ∀ (s : Stack) (out : σ) (err : τ),
      let dump := Effect.ofInstruction ⟨.dump, none⟩ s Buffer.unlimited
      let program := Stack.pushes (s.items.map Operand.kind) (Text.texts dump.out.bytes)
      let run := ((Machine.start (.program (.ofList program)) s.limit).run out err).1
      dump.error = none ∧ run.machine.stack = s ∧ run.machine.halted = true ∧
        run.out = (Sink.flush out).2 ∧
        ((Sink.flush out).1 = none → run.succeeded = true) := by
  refine ⟨?_, ?_, ?_, ?_, ?_⟩
  · intro p v number
    exact ⟨Binary.ofBits v, (Operand.ofBits p v).read_text, Binary.bits?_ofBits number⟩
  · intro p v w hv hw
    refine ⟨fun same => ?_, fun same => same ▸ rfl⟩
    have same : Binary.ofBits v = Binary.ofBits w := Operand.value_eq_of_text_eq same
    have bits := Binary.bits?_ofBits hv
    rw [same, Binary.bits?_ofBits hw] at bits
    exact (Option.some.inj bits).symm
  · intro p v nan
    have eq : Operand.ofBits p v = ⟨.floating p, Binary.nan⟩ :=
      congrArg (Operand.mk (.floating p)) (Binary.ofBits_of_isNaN nan)
    exact ⟨congrArg Operand.text eq, Operand.read_text ⟨.floating p, Binary.nan⟩, rfl⟩
  · intro s x top out
    exact Effect.ofInstruction_assert_top top out
  · intro s out err dump program run
    obtain ⟨machine, written, succeeded⟩ :=
      Machine.run_of_quiet_drive (Machine.quiet_drive_dumped s out) err
    exact ⟨congrArg Effect.error (Effect.dump_unlimited s), congrArg Machine.stack machine,
      congrArg Machine.halted machine, written, succeeded⟩

end TypedStack
