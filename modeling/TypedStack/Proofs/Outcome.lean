import Mathlib.Tactic.Lemma
import TypedStack.Machine.Step

/-!
# Outcomes of instructions

Everything that an instruction can do, as one relation: `Effect.Outcome` has a constructor for each
way to succeed or fail, with the condition for it, and `Effect.outcome` says that there is no other
way. Proofs about all instructions split on the relation and do not open the definitions.
-/

namespace TypedStack

/-- The number of operands that an instruction has to find on the stack. -/
def Opcode.need : Opcode → Nat
  | .pop | .print => 1
  | .binary _ => 2
  | _ => 0

namespace Stack

/-- The stack has not reached its limit. -/
def HasRoom (s : Stack) : Prop := ∀ n, s.limit = some n → s.size < n

/-- The stack with one more operand, for which there is room. -/
def cons (x : Operand) (s : Stack) (room : s.HasRoom) : Stack := ⟨s.limit, x :: s.items, room⟩

/-- The stack without a limit that holds the given operands. -/
def unlimited (items : List Operand) : Stack := ⟨none, items, nofun⟩

/-- One more operand is one more in size. -/
@[simp] lemma size_cons (x : Operand) (s : Stack) (room : s.HasRoom) :
    (s.cons x room).size = s.size + 1 := rfl

/-- Operands that are taken off are missing in size. -/
@[simp] lemma size_drop (count : Nat) (s : Stack) : (s.drop count).size = s.size - count :=
  List.length_drop

/-- Where there is room, a push succeeds. -/
lemma push_of_hasRoom {s : Stack} (room : s.HasRoom) (x : Operand) :
    s.push x = .ok (s.cons x room) := by
  obtain ⟨limit, items, within⟩ := s
  cases limit with
  | none => rfl
  | some n => exact dif_pos (room n rfl)

/-- At the limit, a push fails and names the limit. -/
lemma push_of_full {s : Stack} {n : Nat} (hn : s.limit = some n) (full : n ≤ s.size) (x : Operand) :
    s.push x = .error (.stackOverflow n) := by
  obtain ⟨limit, items, within⟩ := s
  cases hn
  exact dif_neg (Nat.not_lt.mpr full)

/-- A stack has room, or has reached its limit. -/
lemma hasRoom_or_full (s : Stack) : s.HasRoom ∨ ∃ n, s.limit = some n ∧ n ≤ s.size := by
  cases hn : s.limit with
  | none => exact .inl fun n h => by cases hn.symm.trans h
  | some n =>
    rcases Nat.lt_or_ge s.size n with room | full
    · exact .inl fun n' h => by cases hn.symm.trans h; exact room
    · exact .inr ⟨n, rfl, full⟩

/-- The two operands on top are taken off together. -/
lemma popPair?_of_items {s : Stack} {x y : Operand} {rest : List Operand}
    (h : s.items = y :: x :: rest) :
    s.popPair? = some (y, x, s.drop 2) := by
  simp only [popPair?, h]

/-- A stack has fewer than two operands, or two on top. -/
lemma size_lt_two_or_pair (s : Stack) : s.size < 2 ∨ ∃ y x rest, s.items = y :: x :: rest := by
  rcases items : s.items with _ | ⟨y, _ | ⟨x, rest⟩⟩
  · exact .inl (by simp [size, items])
  · exact .inl (by simp [size, items])
  · exact .inr ⟨y, x, rest, rfl⟩

/-- Two operands cannot be taken off if there are fewer. -/
lemma popPair?_of_few {s : Stack} (few : s.size < 2) : s.popPair? = none := by
  rcases items : s.items with _ | ⟨y, _ | ⟨x, rest⟩⟩
  · simp only [popPair?, items]
  · simp only [popPair?, items]
  · rw [size, items] at few
    exact absurd few (Nat.not_lt.mpr (Nat.le_add_left 2 rest.length))

/-- Where two operands were taken, there is room for one. -/
lemma hasRoom_drop {s : Stack} {x y : Operand} {rest : List Operand}
    (h : s.items = y :: x :: rest) :
    (s.drop 2).HasRoom := by
  intro n hn
  have within := s.within n hn
  rw [h] at within
  show (s.items.drop 2).length < n
  rw [h]
  exact Nat.lt_of_succ_lt within

end Stack

namespace Effect

section
variable {σ : Type} {op : BinaryOp} {s : Stack} {x y z : Operand} {rest : List Operand} {e : Error}

/-- An operation that finds too few operands leaves them. -/
lemma binary_of_few (few : s.size < 2) (op : BinaryOp) (out : σ) :
    binary op s out = failed s out (.stackUnderflow (.binary op) 2 s.size) := by
  simp only [binary, Stack.popPair?_of_few few]

/-- An operation that succeeds pushes its result where its operands were. -/
lemma binary_of_ok (items : s.items = y :: x :: rest) (happly : x.apply op y = .ok z) (out : σ) :
    binary op s out =
      record (.arithmetic op (x.kind.promote y.kind) x y) (push z (s.drop 2) out) := by
  simp only [binary, Stack.popPair?_of_items items, happly]

/-- An operation that fails has taken its operands. -/
lemma binary_of_error (items : s.items = y :: x :: rest) (happly : x.apply op y = .error e)
    (out : σ) :
    binary op s out =
      record (.arithmetic op (x.kind.promote y.kind) x y) (failed (s.drop 2) out e) := by
  simp only [binary, Stack.popPair?_of_items items, happly]

end

variable {σ : Type} [Sink σ]

/-- The chunks that an instruction has to write. -/
inductive Writes (i : Instruction) (s : Stack) : List (List UInt8) → Prop where
  | dump : i.opcode = .dump → Writes i s (s.items.map fun x => Text.encode (x.text ++ "\n"))
  | print {code : BitVec 8} {rest : List Operand} :
    i.opcode = .print → s.items = ⟨.int8, code⟩ :: rest → Writes i s [[UInt8.ofBitVec code]]

/-- The ways in which an instruction ends: the stack and the output it leaves, and the error if it
fails. -/
inductive Outcome (i : Instruction) (s : Stack) (out : σ) : Stack → σ → Option Error → Prop where
  | unreadable {e : Error} :
    i.opcode.takesLiteral = true → i.operand = .error e → Outcome i s out s out (some e)
  | pushed {x : Operand} (room : s.HasRoom) :
    i.opcode = .push → i.operand = .ok x → Outcome i s out (s.cons x room) out none
  | full {x : Operand} {n : Nat} :
    i.opcode = .push → i.operand = .ok x → s.limit = some n → n ≤ s.size →
    Outcome i s out s out (some (.stackOverflow n))
  | asserted {x : Operand} :
    i.opcode = .assert → i.operand = .ok x → s.top?.map Operand.text = some x.text →
    Outcome i s out s out none
  | refuted {x : Operand} :
    i.opcode = .assert → i.operand = .ok x → s.top?.map Operand.text ≠ some x.text →
    Outcome i s out s out (some (.assertionFailed x.text (s.top?.map Operand.text)))
  | underflow :
    s.size < i.opcode.need →
    Outcome i s out s out (some (.stackUnderflow i.opcode i.opcode.need s.size))
  | popped {x : Operand} {rest : List Operand} :
    i.opcode = .pop → s.items = x :: rest → Outcome i s out (s.drop 1) out none
  | combined {op : BinaryOp} {x y z : Operand} {rest : List Operand} (room : (s.drop 2).HasRoom) :
    i.opcode = .binary op → s.items = y :: x :: rest → x.apply op y = .ok z →
    Outcome i s out ((s.drop 2).cons z room) out none
  | faulted {op : BinaryOp} {x y : Operand} {rest : List Operand} {e : Error} :
    i.opcode = .binary op → s.items = y :: x :: rest → x.apply op y = .error e →
    Outcome i s out (s.drop 2) out (some e)
  | notPrintable {x : Operand} {rest : List Operand} :
    i.opcode = .print → s.items = x :: rest → x.kind ≠ .int8 →
    Outcome i s out s out (some (.notPrintable x.kind))
  | wrote {chunks : List (List UInt8)} {out' : σ} :
    Writes i s chunks → Sink.writeAll out chunks = (none, out') → Outcome i s out s out' none
  | refused {chunks : List (List UInt8)} {out' : σ} {reason : String} :
    Writes i s chunks → Sink.writeAll out chunks = (some reason, out') →
    Outcome i s out s out' (some (.device reason))
  | exited : i.opcode = .exit → Outcome i s out s out none

variable {i : Instruction} {s : Stack} {out : σ}

/-- The outcome for too few operands, with the operation code that the instruction is known to
have. -/
lemma Outcome.of_underflow {op : Opcode} (hop : i.opcode = op) (few : s.size < op.need) :
    Outcome i s out s out (some (.stackUnderflow op op.need s.size)) := by
  subst hop
  exact .underflow few

/-- Writing ends in one of two ways. -/
lemma Outcome.of_write {chunks : List (List UInt8)} (writes : Writes i s chunks) :
    let effect := write chunks s out
    Outcome i s out effect.stack effect.out effect.error := by
  unfold write
  cases h : Sink.writeAll out chunks with
  | mk refusal out' =>
    cases refusal with
    | none => exact .wrote writes h
    | some reason => exact .refused writes h

/-- The outcomes of an arithmetic operation. -/
lemma Outcome.of_binary {op : BinaryOp} (hop : i.opcode = .binary op) :
    let effect := binary op s out
    Outcome i s out effect.stack effect.out effect.error := by
  rcases s.size_lt_two_or_pair with few | ⟨y, x, rest, items⟩
  · rw [binary_of_few few]
    exact .of_underflow hop few
  · cases happly : x.apply op y with
    | error e =>
      rw [binary_of_error items happly]
      exact .faulted hop items happly
    | ok z =>
      have room := Stack.hasRoom_drop items
      rw [binary_of_ok items happly]
      simp only [push, Stack.push_of_hasRoom room]
      exact .combined room hop items happly

/-- The outcomes of a print. -/
lemma Outcome.of_print (hop : i.opcode = .print) :
    let effect := print s out
    Outcome i s out effect.stack effect.out effect.error := by
  obtain ⟨limit, items, within⟩ := s
  match items, within with
  | [], _ => exact .of_underflow hop Nat.one_pos
  | ⟨.integer .w8, code⟩ :: rest, _ => exact .of_write (.print hop rfl)
  | ⟨.integer .w16, _⟩ :: _, _ | ⟨.integer .w32, _⟩ :: _, _ | ⟨.floating _, _⟩ :: _, _ =>
    exact .notPrintable hop rfl (by simp)

/-- Every instruction ends in one of these ways. -/
theorem outcome (i : Instruction) (s : Stack) (out : σ) :
    let effect := ofInstruction i s out
    Outcome i s out effect.stack effect.out effect.error := by
  cases hop : i.opcode with
  | push =>
    simp only [ofInstruction, hop]
    cases hx : i.operand with
    | error e => exact .unreadable (by rw [hop]; rfl) hx
    | ok x =>
      rcases s.hasRoom_or_full with room | ⟨n, hn, full⟩
      · simp only [push, Stack.push_of_hasRoom room]
        exact .pushed room hop hx
      · simp only [push, Stack.push_of_full hn full]
        exact .full hop hx hn full
  | assert =>
    simp only [ofInstruction, hop]
    cases hx : i.operand with
    | error e => exact .unreadable (by rw [hop]; rfl) hx
    | ok x =>
      simp only [assert]
      split
      · next holds => exact .asserted hop hx holds
      · next fails => exact .refuted hop hx fails
  | pop =>
    simp only [ofInstruction, hop]
    obtain ⟨limit, items, within⟩ := s
    cases items with
    | nil => exact .of_underflow hop Nat.one_pos
    | cons x rest => exact .popped hop rfl
  | dump =>
    simp only [ofInstruction, hop]
    exact .of_write (.dump hop)
  | binary op =>
    simp only [ofInstruction, hop]
    exact .of_binary hop
  | print =>
    simp only [ofInstruction, hop]
    exact .of_print hop
  | exit =>
    simp only [ofInstruction, hop]
    exact .exited hop

/-- The outcome of an instruction that fails. -/
lemma outcome_of_error {e : Error} (failed : (ofInstruction i s out).error = some e) :
    Outcome i s out (ofInstruction i s out).stack (ofInstruction i s out).out (some e) := by
  rw [← failed]
  exact outcome i s out

/-- The outcome of an instruction that succeeds. -/
lemma outcome_of_ok (ok : (ofInstruction i s out).error = none) :
    Outcome i s out (ofInstruction i s out).stack (ofInstruction i s out).out none := by
  rw [← ok]
  exact outcome i s out

/-- No instruction changes the limit. -/
lemma Outcome.limit_eq {s' : Stack} {out' : σ} {error : Option Error}
    (outcome : Outcome i s out s' out' error) : s'.limit = s.limit := by
  cases outcome <;> rfl

/-- Comparing and writing only look at the stack. -/
lemma Outcome.stack_eq {s' : Stack} {out' : σ} {error : Option Error}
    (outcome : Outcome i s out s' out' error)
    (hop : i.opcode = .assert ∨ i.opcode = .dump ∨ i.opcode = .print) : s' = s := by
  cases outcome with
  | pushed _ hop' | popped hop' | combined _ hop' | faulted hop' => simp [hop'] at hop
  | unreadable | full | asserted | refuted | underflow | notPrintable | wrote | refused | exited =>
    rfl

end Effect

/-! ## Where errors come from -/

/-- Reading an operand fails only because its text is no number of its kind. -/
lemma Operand.read_error {kind : Kind} {text : String} {e : Error}
    (he : Operand.read kind text = .error e) : e = .invalidLiteral kind text := by
  unfold Operand.read at he
  split at he
  · cases he
  · cases he
    rfl

/-- The operand of an instruction is missing or has a text that is no number. -/
lemma Instruction.operand_error {i : Instruction} {e : Error} (he : i.operand = .error e) :
    e = .missingLiteral i.opcode ∨ ∃ kind text, e = .invalidLiteral kind text := by
  obtain ⟨opcode, literal⟩ := i
  cases literal with
  | none =>
    cases he
    exact .inl rfl
  | some literal => exact .inr ⟨literal.kind, literal.text, Operand.read_error he⟩

/-- Arithmetic fails with a fault of its own operation in the wider kind. -/
lemma Operand.apply_error {op : BinaryOp} {x y : Operand} {e : Error}
    (he : x.apply op y = .error e) :
    ∃ fault : Fault, e = fault.error op (x.kind.promote y.kind) := by
  unfold Operand.apply at he
  dsimp only at he
  split at he
  · cases he
  · next fault _ =>
    cases he
    exact ⟨fault, rfl⟩

end TypedStack
