import TypedStack.Proofs.Execution
import TypedStack.Proofs.Outcome

/-!
# Postfix code

An expression is evaluated by running its postfix code: the code of the left part, the code of the
right part, and then the operation. The two lemmas on `drive` speak of code that stands before other
code, starts at any line and finds any operands below; the inductions need all of these to be
arbitrary.
-/

namespace TypedStack

/-- An expression over literals. -/
inductive Expression where
  | literal (l : Literal)
  | apply (op : BinaryOp) (left right : Expression)

namespace Expression

/-- The value of an expression; the left part is evaluated first. -/
def eval : Expression → Except Error Operand
  | literal l => l.operand
  | apply op left right => do
    let x ← left.eval
    let y ← right.eval
    x.apply op y

/-- The postfix code of an expression. -/
def code : Expression → List Instruction
  | literal l => [⟨.push, some l⟩]
  | apply op left right => left.code ++ right.code ++ [⟨.binary op, none⟩]

/-- The parts of an expression in postfix order, the expression itself last. -/
def postorder : Expression → List Expression
  | literal l => [literal l]
  | apply op left right => left.postorder ++ right.postorder ++ [apply op left right]

/-- Whether an expression has no value. -/
def fails (t : Expression) : Bool := t.eval.toOption.isNone

/-- The position in postfix order, counted from one, of the first part that has no value. -/
def failurePosition (t : Expression) : Nat := t.postorder.findIdx fails + 1

variable {op : BinaryOp} {left right t : Expression} {x y v : Operand} {e : Error}

/-- If both parts have values, these are combined. -/
lemma eval_apply_of_ok (hx : left.eval = .ok x) (hy : right.eval = .ok y) :
    (apply op left right).eval = x.apply op y := by
  simp only [eval, hx, hy, bind, Except.bind]

/-- If the left part has no value, its error is the error of the whole. -/
lemma eval_apply_of_left_error (he : left.eval = .error e) :
    (apply op left right).eval = .error e := by
  simp only [eval, he, bind, Except.bind]

/-- If only the right part has no value, its error is the error of the whole. -/
lemma eval_apply_of_right_error (hx : left.eval = .ok x) (he : right.eval = .error e) :
    (apply op left right).eval = .error e := by
  simp only [eval, hx, he, bind, Except.bind]

/-- An expression with a value has parts with values. -/
lemma eval_apply_ok (hv : (apply op left right).eval = .ok v) :
    ∃ x y, left.eval = .ok x ∧ right.eval = .ok y ∧ x.apply op y = .ok v := by
  cases hx : left.eval with
  | error e => cases hv.symm.trans (eval_apply_of_left_error hx)
  | ok x =>
    cases hy : right.eval with
    | error e => cases hv.symm.trans (eval_apply_of_right_error hx hy)
    | ok y => exact ⟨x, y, rfl, rfl, (eval_apply_of_ok hx hy).symm.trans hv⟩

/-! ## Positions -/

/-- There is one instruction for each part of an expression. -/
lemma length_code (t : Expression) : t.code.length = t.postorder.length := by
  induction t with
  | literal l => rfl
  | apply op left right ihl ihr =>
    simp only [code, postorder, List.length_append, List.length_singleton, ihl, ihr]

/-- An expression whose evaluation fails has no value. -/
lemma fails_of_error (he : t.eval = .error e) : t.fails = true := by
  rw [fails, he]
  rfl

/-- An expression is one of its own parts. -/
lemma mem_postorder (t : Expression) : t ∈ t.postorder := by
  cases t with
  | literal l => exact List.mem_singleton_self _
  | apply op left right => exact List.mem_append_right _ (List.mem_singleton_self _)

/-- An expression with a value does not fail. -/
lemma not_fails_of_ok (hv : t.eval = .ok v) : t.fails = false := by
  rw [fails, hv]
  rfl

/-- All parts of an expression with a value have values. -/
lemma not_fails_of_mem_postorder (hv : t.eval = .ok v) : ∀ p ∈ t.postorder, p.fails = false := by
  induction t generalizing v with
  | literal l =>
    intro p hp
    rw [List.mem_singleton.mp hp]
    exact not_fails_of_ok hv
  | apply op left right ihl ihr =>
    obtain ⟨x, y, hx, hy, -⟩ := eval_apply_ok hv
    intro p hp
    rcases List.mem_append.mp hp with hp | hp
    · rcases List.mem_append.mp hp with hp | hp
      · exact ihl hx p hp
      · exact ihr hy p hp
    · rw [List.mem_singleton.mp hp]
      exact not_fails_of_ok hv

/-- In an expression with a value no failing part is found. -/
lemma findIdx_fails_of_ok (hv : t.eval = .ok v) : t.postorder.findIdx fails = t.postorder.length :=
  List.findIdx_eq_length.mpr (not_fails_of_mem_postorder hv)

/-- In an expression without a value a failing part is found. -/
lemma findIdx_fails_lt_of_error (he : t.eval = .error e) :
    t.postorder.findIdx fails < t.postorder.length :=
  List.findIdx_lt_length_of_exists ⟨t, mem_postorder t, fails_of_error he⟩

/-- The first failing part is that of the left part, if this one fails. -/
lemma failurePosition_of_left (he : left.eval = .error e) :
    (apply op left right).failurePosition = left.failurePosition := by
  have found := findIdx_fails_lt_of_error he
  simp [failurePosition, postorder, List.findIdx_append, found]

/-- The first failing part is that of the right part, if only this one fails. -/
lemma failurePosition_of_right (hx : left.eval = .ok x) (he : right.eval = .error e) :
    (apply op left right).failurePosition = left.code.length + right.failurePosition := by
  have found := findIdx_fails_lt_of_error he
  simp [failurePosition, postorder, List.findIdx_append, findIdx_fails_of_ok hx, found, length_code]
  omega

/-- If neither part fails, the first failing part is the expression itself. -/
lemma failurePosition_of_apply (hx : left.eval = .ok x) (hy : right.eval = .ok y)
    (he : x.apply op y = .error e) :
    (apply op left right).failurePosition = left.code.length + right.code.length + 1 := by
  have fails := fails_of_error ((eval_apply_of_ok hx hy).trans he)
  simp [failurePosition, postorder, List.findIdx_append, List.findIdx_cons, findIdx_fails_of_ok hx,
    findIdx_fails_of_ok hy, fails, length_code]
  omega

/-! ## Runs of code -/

/-- A machine without a limit at a place of a program, above some operands. -/
def machineAt (rest : List Instruction) (line : Nat) (items : List Operand) : Machine :=
  ⟨.program ⟨rest, line⟩, .unlimited items, false⟩

variable {σ : Type} [Sink σ] {l : Literal} {rest : List Instruction} {line : Nat}
  {items : List Operand} {out : σ}

/-- A push of a number goes on above that number. -/
lemma quiet_drive_push_of_ok (hx : l.operand = .ok x) :
    ((machineAt (⟨.push, some l⟩ :: rest) line items).drive out).quiet =
      ((machineAt rest (line + 1) (x :: items)).drive out).quiet := by
  have effect : Effect.ofInstruction ⟨.push, some l⟩ (.unlimited items) out =
      .done (.unlimited (x :: items)) out := by
    simp only [Effect.ofInstruction, Instruction.operand, hx]
    rfl
  exact Machine.quiet_drive_program_of_ok (by simp) effect rfl

/-- A push of a text that is no number fails and keeps the stack. -/
lemma quiet_drive_push_of_error (he : l.operand = .error e) :
    ((machineAt (⟨.push, some l⟩ :: rest) line items).drive out).quiet =
      ⟨machineAt rest (line + 1) items, out, some ⟨line + 1, e⟩, []⟩ := by
  have effect : Effect.ofInstruction ⟨.push, some l⟩ (.unlimited items) out =
      .failed (.unlimited items) out e := by
    simp only [Effect.ofInstruction, Instruction.operand, he]
  exact Machine.quiet_drive_program_of_error effect rfl

/-- The operand on top is the right one. -/
lemma quiet_drive_binary_of_ok (hv : x.apply op y = .ok v) :
    ((machineAt (⟨.binary op, none⟩ :: rest) line (y :: x :: items)).drive out).quiet =
      ((machineAt rest (line + 1) (v :: items)).drive out).quiet := by
  have effect : Effect.ofInstruction ⟨.binary op, none⟩ (.unlimited (y :: x :: items)) out =
      .record (.arithmetic op (x.kind.promote y.kind) x y)
        (.done (.unlimited (v :: items)) out) := by
    exact Effect.binary_of_ok (s := .unlimited (y :: x :: items)) rfl hv out
  exact Machine.quiet_drive_program_of_ok (by simp) effect rfl

/-- A failed operation has lost both operands. -/
lemma quiet_drive_binary_of_error (he : x.apply op y = .error e) :
    ((machineAt (⟨.binary op, none⟩ :: rest) line (y :: x :: items)).drive out).quiet =
      ⟨machineAt rest (line + 1) items, out, some ⟨line + 1, e⟩, []⟩ := by
  have effect : Effect.ofInstruction ⟨.binary op, none⟩ (.unlimited (y :: x :: items)) out =
      .record (.arithmetic op (x.kind.promote y.kind) x y) (.failed (.unlimited items) out e) := by
    exact Effect.binary_of_error (s := .unlimited (y :: x :: items)) rfl he out
  exact Machine.quiet_drive_program_of_error effect rfl

/-- Code of an expression with a value puts the value on the stack and goes on with what follows. -/
lemma quiet_drive_code_of_ok (hv : t.eval = .ok v) :
    ((machineAt (t.code ++ rest) line items).drive out).quiet =
      ((machineAt rest (line + t.code.length) (v :: items)).drive out).quiet := by
  induction t generalizing v rest line items with
  | literal l => exact quiet_drive_push_of_ok hv
  | apply op left right ihl ihr =>
    obtain ⟨x, y, hx, hy, hv⟩ := eval_apply_ok hv
    let binary : Instruction := ⟨.binary op, none⟩
    let behindLeft := line + left.code.length
    let behindRight := behindLeft + right.code.length
    calc ((machineAt ((apply op left right).code ++ rest) line items).drive out).quiet
        = ((machineAt (left.code ++ (right.code ++ binary :: rest)) line items).drive
          out).quiet := by
          simp only [code, binary, List.append_assoc, List.singleton_append]
      _ = ((machineAt (right.code ++ binary :: rest) behindLeft (x :: items)).drive out).quiet :=
          ihl hx
      _ = ((machineAt (binary :: rest) behindRight (y :: x :: items)).drive out).quiet := ihr hy
      _ = ((machineAt rest (behindRight + 1) (v :: items)).drive out).quiet :=
          quiet_drive_binary_of_ok hv
      _ = ((machineAt rest (line + (apply op left right).code.length) (v :: items)).drive
            out).quiet := by
          simp only [code, List.length_append, List.length_singleton, behindRight, behindLeft,
            Nat.add_assoc]

/-- Code of an expression without a value fails at the first part that has none. The operands below
stay. -/
lemma quiet_drive_code_of_error (rest : List Instruction) (line : Nat) (items : List Operand)
    (out : σ) (he : t.eval = .error e) :
    ∃ rest' above,
      ((machineAt (t.code ++ rest) line items).drive out).quiet =
        ⟨machineAt rest' (line + t.failurePosition) (above ++ items), out,
          some ⟨line + t.failurePosition, e⟩, []⟩ := by
  induction t generalizing rest line items with
  | literal l =>
    have first : (literal l).failurePosition = 1 := by
      simp [failurePosition, postorder, List.findIdx_cons, fails_of_error he]
    rw [first]
    exact ⟨rest, [], quiet_drive_push_of_error he⟩
  | apply op left right ihl ihr =>
    simp only [code, List.append_assoc, List.singleton_append]
    -- the first failing part lies in the left part, in the right part, or is the operation itself
    cases hx : left.eval with
    | error e' =>
      cases he.symm.trans (eval_apply_of_left_error hx)
      rw [failurePosition_of_left hx]
      exact ihl _ line items hx
    | ok x =>
      rw [quiet_drive_code_of_ok hx]
      cases hy : right.eval with
      | error e' =>
        cases he.symm.trans (eval_apply_of_right_error hx hy)
        rw [failurePosition_of_right hx hy, ← Nat.add_assoc]
        -- the value of the left part is one more operand that stays below
        obtain ⟨rest', above, run⟩ :=
          ihr (⟨.binary op, none⟩ :: rest) (line + left.code.length) (x :: items) hy
        refine ⟨rest', above ++ [x], ?_⟩
        rw [run, List.append_assoc]
        rfl
      | ok y =>
        have he : x.apply op y = .error e := (eval_apply_of_ok hx hy).symm.trans he
        rw [quiet_drive_code_of_ok hy, failurePosition_of_apply hx hy he]
        simp only [← Nat.add_assoc]
        exact ⟨rest, [], quiet_drive_binary_of_error he⟩

/-- Executing the code of an expression evaluates it, above any operands and writing nothing. If
there is a value, all instructions succeed and the value is put on the stack; only the flush at the
end can still fail. If there is none, the execution fails with the error of the evaluation, at the
line of the first part that has no value. -/
theorem execute_code (t : Expression) (items : List Operand) (out : σ) :
    let m : Machine := ⟨.program (.ofList t.code), .unlimited items, false⟩
    (m.drive out).out = out ∧ (m.execute out).out = (Sink.flush out).2 ∧
    match t.eval with
    | .ok v =>
      (m.drive out).failure = none ∧
      (m.execute out).machine = ⟨.program ⟨[], t.code.length⟩, .unlimited (v :: items), true⟩ ∧
      (m.execute out).failure = (Sink.flush out).1.map fun reason => ⟨t.code.length, .device reason⟩
    | .error e =>
      (m.execute out).failure = some ⟨t.failurePosition, e⟩ ∧
      (m.execute out).machine.halted = false ∧
      ∃ above, (m.execute out).machine.stack = .unlimited (above ++ items) := by
  intro m
  have hm : m = machineAt (t.code ++ []) 0 items := by rw [List.append_nil]; rfl
  cases h : t.eval with
  | ok v =>
    have run : (m.drive out).quiet =
        ⟨⟨.program ⟨[], t.code.length⟩, .unlimited (v :: items), true⟩, out, none, []⟩ := by
      rw [hm, quiet_drive_code_of_ok h, Nat.zero_add]
      exact Machine.quiet_drive_program_nil
    obtain ⟨machine, output, failure, -⟩ := Run.mk.inj run
    rw [Machine.execute_out, Machine.execute_machine, Machine.execute_failure, machine, output,
      failure]
    exact ⟨rfl, rfl, rfl, rfl, rfl⟩
  | error e =>
    obtain ⟨rest, above, run⟩ := quiet_drive_code_of_error [] 0 items out h
    rw [← hm, Nat.zero_add] at run
    obtain ⟨machine, output, failure, -⟩ := Run.mk.inj run
    rw [Machine.execute_out, Machine.execute_machine, Machine.execute_failure, machine, output,
      failure]
    exact ⟨rfl, rfl, rfl, rfl, above, rfl⟩

end Expression

end TypedStack
