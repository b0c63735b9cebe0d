import Mathlib.Data.Nat.Find
import TypedStack.Proofs.Limit
import TypedStack.Proofs.Progress

/-!
# Runs with and without a stack limit

A run with a stack limit does what the run without one does, up to the first push that finds the
stack full. A machine with a limit and the same machine without one are compared by `withoutLimit`,
which commutes with every step but that push.
-/

namespace TypedStack

/-- The same stack without its limit. -/
def Stack.withoutLimit (s : Stack) : Stack := .unlimited s.items

/-- The same effect without a limit on the stack. -/
def Effect.withoutLimit {σ : Type} (effect : Effect σ) : Effect σ :=
  { effect with stack := effect.stack.withoutLimit }

/-- The same machine without a limit on its stack. -/
def Machine.withoutLimit (m : Machine) : Machine := { m with stack := m.stack.withoutLimit }

/-- The same step without a limit on the stack. -/
def Step.withoutLimit {σ : Type} (step : Step σ) : Step σ :=
  { step with machine := step.machine.withoutLimit }

/-- The same run without a limit on the stack. -/
def Run.withoutLimit {σ : Type} (run : Run σ) : Run σ :=
  { run with machine := run.machine.withoutLimit }

namespace Effect

variable {σ : Type} {i : Instruction} {s : Stack} {out : σ} {n : Nat}

/-- A push that finds room does not look at the limit. -/
lemma push_withoutLimit (x : Operand) (room : s.HasRoom) :
    push x s.withoutLimit out = (push x s out).withoutLimit := by
  have free : s.withoutLimit.HasRoom := fun _ h => by cases h
  simp only [push, Stack.push_of_hasRoom room, Stack.push_of_hasRoom free]
  rfl

/-- Arithmetic always finds room for its result. -/
lemma binary_withoutLimit (op : BinaryOp) :
    binary op s.withoutLimit out = (binary op s out).withoutLimit := by
  rcases s.size_lt_two_or_pair with few | ⟨y, x, rest, items⟩
  · rw [binary_of_few few, binary_of_few (s := s.withoutLimit) few]
    rfl
  · cases happly : x.apply op y with
    | error e =>
      rw [binary_of_error items happly, binary_of_error (s := s.withoutLimit) items happly]
      rfl
    | ok z =>
      rw [binary_of_ok items happly, binary_of_ok (s := s.withoutLimit) items happly]
      exact congrArg (record _) (push_withoutLimit z (Stack.hasRoom_drop items))

variable [Sink σ]

/-- Writing does not look at the limit. -/
lemma write_withoutLimit (chunks : List (List UInt8)) :
    write chunks s.withoutLimit out = (write chunks s out).withoutLimit := by
  unfold write
  split <;> rfl

/-- A print does not look at the limit. -/
lemma print_withoutLimit : print s.withoutLimit out = (print s out).withoutLimit := by
  obtain ⟨limit, items, within⟩ := s
  match items, within with
  | [], _ => rfl
  | ⟨.integer .w8, code⟩ :: rest, _ => exact write_withoutLimit _
  | ⟨.integer .w16, _⟩ :: _, _ | ⟨.integer .w32, _⟩ :: _, _ | ⟨.floating _, _⟩ :: _, _ => rfl

/-- Only a push onto a full stack can tell that there is a limit. -/
lemma ofInstruction_withoutLimit
    (room : ∀ x, i.opcode = .push → i.operand = .ok x → s.HasRoom) :
    ofInstruction i s.withoutLimit out = (ofInstruction i s out).withoutLimit := by
  cases hop : i.opcode with
  | push =>
    simp only [ofInstruction, hop]
    cases hx : i.operand with
    | error e => rfl
    | ok x => exact push_withoutLimit x (room x hop hx)
  | assert =>
    simp only [ofInstruction, hop]
    cases i.operand with
    | error e => rfl
    | ok x =>
      have top : s.withoutLimit.top? = s.top? := rfl
      simp only [assert, top]
      by_cases holds : s.top?.map Operand.text = some x.text
      · simp only [if_pos holds]
        rfl
      · simp only [if_neg holds]
        rfl
  | pop =>
    simp only [ofInstruction, hop]
    obtain ⟨limit, items, within⟩ := s
    cases items with
    | nil => rfl
    | cons x rest => rfl
  | dump =>
    simp only [ofInstruction, hop]
    exact write_withoutLimit _
  | binary op =>
    simp only [ofInstruction, hop]
    exact binary_withoutLimit op
  | print =>
    simp only [ofInstruction, hop]
    exact print_withoutLimit
  | exit =>
    simp only [ofInstruction, hop]
    rfl

end Effect

namespace Machine

variable {σ τ : Type} [Sink σ] [Sink τ] {m m' : Machine} {out out' : σ} {n count : Nat}

/-- The next instruction of a running machine is a push with an operand, and the stack holds `n`
operands. -/
structure PushesAt (n : Nat) (m : Machine) : Prop where
  running : m.halted = false
  size : m.stack.size = n
  push : ∃ i x, m.source.next.result = .ok i ∧ i.opcode = .push ∧ i.operand = .ok x

/-- Whether a machine pushes onto `n` operands has nothing to do with its limit. -/
lemma pushesAt_withoutLimit : m.withoutLimit.PushesAt n ↔ m.PushesAt n :=
  ⟨fun ⟨running, size, push⟩ => ⟨running, size, push⟩,
    fun ⟨running, size, push⟩ => ⟨running, size, push⟩⟩

/-- Where no push meets a full stack, the limit makes no difference to a step. -/
lemma step_withoutLimit (limit : m.stack.limit = some n) (running : m.halted = false)
    (room : ¬ m.PushesAt n) (out : σ) :
    m.withoutLimit.step out = (m.step out).withoutLimit := by
  cases h : m.source.next.result with
  | error e =>
    rw [step_of_pull_error h, step_of_pull_error (m := m.withoutLimit) h]
    rfl
  | ok i =>
    have room (x : Operand) (hop : i.opcode = .push) (hx : i.operand = .ok x) :
        m.stack.HasRoom := by
      rcases m.stack.hasRoom_or_full with room | ⟨n', hn, full⟩
      · exact room
      · cases limit.symm.trans hn
        have size := Nat.le_antisymm (Stack.size_le limit) full
        exact absurd ⟨running, size, i, x, h, hop, hx⟩ room
    rw [step_of_pull_ok h, step_of_pull_ok (m := m.withoutLimit) h]
    simp only [withoutLimit, Effect.ofInstruction_withoutLimit room]
    rfl

/-- Without a limit, a push onto `n` operands leaves one more. -/
lemma step_of_pushesAt (limit : m.stack.limit = none) (full : m.PushesAt n) (out : σ) :
    (m.step out).error = none ∧ (m.step out).machine.stack.size = n + 1 := by
  obtain ⟨-, size, i, x, h, hop, hx⟩ := full
  have room : m.stack.HasRoom := fun _ h => by cases limit.symm.trans h
  rw [step_of_pull_ok h]
  simp only [Effect.ofInstruction, hop, hx, Effect.push, Stack.push_of_hasRoom room]
  exact ⟨rfl, congrArg Nat.succ size⟩

/-- With the limit `n`, a push onto `n` operands overflows and changes nothing but the source. -/
lemma step_of_pushesAt_limit (limit : m.stack.limit = some n) (full : m.PushesAt n) (out : σ) :
    (m.step out).error = some (.stackOverflow n) ∧ (m.step out).out = out ∧
      (m.step out).machine = ⟨m.source.next.source, m.stack, false⟩ := by
  obtain ⟨running, size, i, x, h, hop, hx⟩ := full
  rw [step_of_pull_ok h]
  simp only [Effect.ofInstruction, hop, hx, Effect.push,
    Stack.push_of_full limit (Nat.le_of_eq size.symm), running]
  exact ⟨rfl, rfl, rfl⟩

/-- None of the first `count` steps of a run is a push that meets a stack of `n` operands. -/
def NoPushAt (n count : Nat) (m : Machine) (out : σ) : Prop :=
  ∀ k < count, ∀ m' out', advance k m out = some (m', out') → ¬ m'.PushesAt n

/-- No step of a run is a push that meets a stack of `n` operands. -/
def NeverPushesAt (n : Nat) (m : Machine) (out : σ) : Prop :=
  ∀ count m' out', advance count m out = some (m', out') → ¬ m'.PushesAt n

/-- What holds of some steps holds of those behind the first. -/
lemma NoPushAt.step (before : NoPushAt n (count + 1) m out) (running : m.halted = false)
    (ok : (m.step out).error = none) : NoPushAt n count (m.step out).machine (m.step out).out := by
  intro k hk m' out' h
  rw [← advance_of_ok running ok] at h
  exact before (k + 1) (Nat.succ_lt_succ hk) m' out' h

/-- What holds of all steps holds of the first ones. -/
lemma NeverPushesAt.noPushAt (never : NeverPushesAt n m out) (count : Nat) :
    NoPushAt n count m out :=
  fun k _ => never k

/-- What holds of all steps holds of those behind the first. -/
lemma NeverPushesAt.step (never : NeverPushesAt n m out) (running : m.halted = false)
    (ok : (m.step out).error = none) : NeverPushesAt n (m.step out).machine (m.step out).out :=
  fun count => (never.noPushAt (count + 2)).step running ok count (Nat.lt_succ_self count)

/-- A run that never pushes onto a full stack is driven in the same way without the limit. -/
lemma drive_withoutLimit (limit : m.stack.limit = some n)
    (never : NeverPushesAt n m.withoutLimit out) :
    m.withoutLimit.drive out = (m.drive out).withoutLimit := by
  -- both drives take the same turns, since no step of them pushes onto a full stack
  fun_induction drive m out with
  | case1 m out halted => exact drive_of_halted (m := m.withoutLimit) halted
  | case2 m out running step e he =>
    have running := Bool.eq_false_iff.mpr running
    have room : ¬ m.PushesAt n := pushesAt_withoutLimit.not.mp (never 0 _ out rfl)
    have same := step_withoutLimit limit running room out
    rw [drive_of_error (m := m.withoutLimit) running ((congrArg Step.error same).trans he), same]
    rfl
  | case3 m out running step ok rest ih =>
    have running := Bool.eq_false_iff.mpr running
    have room : ¬ m.PushesAt n := pushesAt_withoutLimit.not.mp (never 0 _ out rfl)
    have same := step_withoutLimit limit running room out
    have ok' := (congrArg Step.error same).trans ok
    have next := never.step (m := m.withoutLimit) running ok'
    rw [same] at next
    have ih := ih (limit_step.trans limit) next
    rw [drive_of_ok (m := m.withoutLimit) running ok', same]
    simp only [Step.withoutLimit]
    rw [ih]
    rfl

/-- Up to the first push onto a full stack, the runs with and without the limit stand at the same
point. -/
lemma advance_withoutLimit (limit : m.stack.limit = some n)
    (before : NoPushAt n count m.withoutLimit out) :
    advance count m.withoutLimit out =
      (advance count m out).map (Prod.map withoutLimit id) := by
  induction count generalizing m out with
  | zero => rfl
  | succ count ih =>
    cases halted : m.halted with
    | true => simp [advance, withoutLimit, halted]
    | false =>
      have room : ¬ m.PushesAt n :=
        pushesAt_withoutLimit.not.mp (before 0 (Nat.succ_pos count) _ out rfl)
      have same := step_withoutLimit limit halted room out
      have error : (m.withoutLimit.step out).error = (m.step out).error := by
        rw [same]
        rfl
      cases he : (m.step out).error with
      | some e => simp [advance, error, he]
      | none =>
        have next := before.step (m := m.withoutLimit) halted (error.trans he)
        rw [same] at next
        rw [advance_of_ok halted he, advance_of_ok (m := m.withoutLimit) halted (error.trans he),
          same]
        exact ih (limit_step.trans limit) next

/-- Closing a run does not look at the limit. -/
lemma close_withoutLimit (run : Run σ) (err : τ) :
    run.withoutLimit.close err = Prod.map Run.withoutLimit id (run.close err) := rfl

/-- A run that never pushes onto a full stack is the same without the limit. -/
lemma quietRun_withoutLimit (limit : m.stack.limit = some n)
    (never : NeverPushesAt n m.withoutLimit out) (err : τ) :
    m.withoutLimit.quietRun out err = Prod.map Run.withoutLimit id (m.quietRun out err) := by
  rw [quietRun_eq_close, quietRun_eq_close, drive_withoutLimit limit never]
  exact close_withoutLimit (m.drive out).quiet err

/-- Where the run without the limit stands before the first push onto a full stack, there stands the
run with the limit. -/
lemma exists_advance_limited (limit : m.stack.limit = some n)
    (before : NoPushAt n count m.withoutLimit out)
    (h : advance count m.withoutLimit out = some (m', out')) :
    ∃ l, advance count m out = some (l, out') ∧ l.withoutLimit = m' ∧
      l.stack.limit = some n := by
  rw [advance_withoutLimit limit before] at h
  obtain ⟨⟨l, out⟩, hl, eq⟩ := Option.map_eq_some_iff.mp h
  obtain ⟨rfl, rfl⟩ := Prod.mk.inj eq
  refine ⟨l, hl, rfl, ?_⟩
  exact advance_induction (P := fun m _ => m.stack.limit = some n) limit
    (fun _ _ _ _ ih => limit_step.trans ih) hl

/-- The first push onto a full stack ends the run with the limit. -/
lemma quietRun_of_first_push (h : advance count m out = some (m', out'))
    (limit : m'.stack.limit = some n) (full : m'.PushesAt n) (err : τ) :
    let failure : Failure := ⟨m'.source.next.source.line, .stackOverflow n⟩
    m.quietRun out err =
      (⟨⟨m'.source.next.source, m'.stack, false⟩, (Sink.flush out').2, some failure, []⟩,
        (Sink.write err (Text.encode failure.report)).2) := by
  obtain ⟨error, hout, machine⟩ := step_of_pushesAt_limit limit full out'
  rw [quietRun_eq_close, quiet_drive_of_advance h, drive_of_error full.running error, hout, machine]
  rfl

/-- A stack exceeds `n` operands by a push that meets `n` of them, and in no other way. -/
lemma neverPushesAt_iff (limit : m.stack.limit = some n) (out : σ) :
    NeverPushesAt n m.withoutLimit out ↔
      ∀ count m' out', advance count m.withoutLimit out = some (m', out') → m'.stack.size ≤ n := by
  constructor
  · intro never count m' out' h
    obtain ⟨l, -, rfl, limit⟩ := exists_advance_limited limit (never.noPushAt count) h
    exact l.stack.size_le limit
  · intro within count m' out' h full
    have limit : m'.stack.limit = none :=
      advance_induction (P := fun m _ => m.stack.limit = none) rfl
        (fun _ _ _ _ ih => limit_step.trans ih) h
    obtain ⟨ok, size⟩ := step_of_pushesAt limit full out'
    have exceeds := within (count + 1) _ _ (advance_step h full.running ok)
    rw [size] at exceeds
    exact Nat.not_succ_le_self n exceeds

/-- If some step pushes onto `n` operands, there is a first one. -/
lemma exists_first_push (h : ¬ NeverPushesAt n m out) :
    ∃ count m' out', NoPushAt n count m out ∧ advance count m out = some (m', out') ∧
      m'.PushesAt n := by
  classical
  have exists_push : ∃ count m' out', advance count m out = some (m', out') ∧ m'.PushesAt n := by
    simpa [NeverPushesAt] using h
  obtain ⟨m', out', h, full⟩ := Nat.find_spec exists_push
  refine ⟨_, m', out', fun k hk m'' out'' h' full' => ?_, h, full⟩
  exact Nat.find_min exists_push hk ⟨m'', out'', h', full'⟩

/-- A run ends with the limit with which it started. -/
lemma limit_run (m : Machine) (out : σ) (err : τ) :
    (m.run out err).1.machine.stack.limit = m.stack.limit := by
  rw [run_eq]
  exact drive_induction (P := fun m' _ => m'.stack.limit = m.stack.limit)
    (fun _ _ _ ih => limit_step.trans ih) rfl

/-- A fresh machine with a limit is one without it in all other respects. -/
lemma start_withoutLimit (source : Source) (limit : Option Nat) :
    (start source limit).withoutLimit = start source none := rfl

/-- A run with the limit `n` succeeds if the run without a limit does, and never pushes onto `n`
operands. -/
lemma succeeded_iff (source : Source) (n : Nat) (out : σ) (err : τ) :
    ((start source (some n)).run out err).1.succeeded = true ↔
      ((start source none).run out err).1.succeeded = true ∧
        NeverPushesAt n (start source none) out := by
  rw [succeeded_run, succeeded_run, ← start_withoutLimit source (some n)]
  by_cases never : NeverPushesAt n (start source none) out
  · rw [quietRun_withoutLimit rfl never err]
    exact ⟨fun h => ⟨h, never⟩, And.left⟩
  · obtain ⟨count, m, out', before, h, full⟩ := exists_first_push never
    obtain ⟨l, hl, rfl, limit⟩ :=
      exists_advance_limited (m := start source (some n)) rfl before h
    rw [quietRun_of_first_push hl limit (pushesAt_withoutLimit.mp full) err]
    constructor
    · intro succeeded
      cases succeeded
    · intro succeeded
      exact absurd succeeded.2 never

/-- If the run without a limit never pushes onto `n` operands, the first run with the limit `n` is
the same apart from the limit: outcome, output, report and machine. Otherwise there is a first such
push; both runs stand at the same points up to it, and there the one with the limit fails at the
line of the push, with the output written so far and the operands that were there. So a success with
the limit `n` is the same success with every larger limit and without one, and it comes about
exactly if the run without a limit succeeds and never holds more than `n` operands. Every run ends
with the limit it started with. -/
theorem run_limited_eq_run_unlimited (source : Source) (n : Nat) (out : σ) (err : τ) :
    let free := start source none
    let limited := start source (some n)
    (NeverPushesAt n free out →
      Prod.map Run.withoutLimit id (limited.quietRun out err) = free.quietRun out err) ∧
    (¬ NeverPushesAt n free out → ∃ count m out',
      NoPushAt n count free out ∧ advance count free out = some (m.withoutLimit, out') ∧
      advance count limited out = some (m, out') ∧ m.PushesAt n ∧
      (∀ k ≤ count, (advance k limited out).map (Prod.map withoutLimit id) =
        advance k free out) ∧
      let failure : Failure := ⟨m.source.next.source.line, .stackOverflow n⟩
      limited.quietRun out err =
        (⟨⟨m.source.next.source, m.stack, false⟩, (Sink.flush out').2, some failure, []⟩,
          (Sink.write err (Text.encode failure.report)).2)) ∧
    ((limited.run out err).1.succeeded = true → ∀ limit, (∀ n', limit = some n' → n ≤ n') →
      Prod.map Run.withoutLimit id ((start source limit).quietRun out err) =
        Prod.map Run.withoutLimit id (limited.quietRun out err)) ∧
    ((limited.run out err).1.succeeded = true ↔
      (free.run out err).1.succeeded = true ∧
        ∀ count m out', advance count free out = some (m, out') → m.stack.size ≤ n) ∧
    (∀ limit, ((start source limit).run out err).1.machine.stack.limit = limit) := by
  intro free limited
  refine ⟨fun never => (quietRun_withoutLimit rfl never err).symm, fun pushes => ?_,
    fun succeeded limit larger => ?_, ?_, fun limit => limit_run _ out err⟩
  · obtain ⟨count, m', out', before, h, full⟩ := exists_first_push pushes
    obtain ⟨m, hm, rfl, limit⟩ := exists_advance_limited (m := limited) rfl before h
    have full := pushesAt_withoutLimit.mp full
    refine ⟨count, m, out', before, h, hm, full, fun k hk => ?_,
      quietRun_of_first_push hm limit full err⟩
    refine (advance_withoutLimit rfl fun j hj => ?_).symm
    exact before j (Nat.lt_of_lt_of_le hj hk)
  · have never := ((succeeded_iff source n out err).mp succeeded).2
    have same : free.quietRun out err = _ := quietRun_withoutLimit (m := limited) rfl never err
    rw [← same]
    cases limit with
    | none =>
      show Prod.map Run.withoutLimit id (free.quietRun out err) = free.quietRun out err
      rw [same]
      rfl
    | some n' =>
      -- what never exceeds `n` never exceeds `n'`
      have never' : NeverPushesAt n' free out := by
        refine (neverPushesAt_iff (m := start source (some n')) rfl out).mpr ?_
        intro count m out' h
        exact Nat.le_trans ((neverPushesAt_iff (m := limited) rfl out).mp never count m out' h)
          (larger n' rfl)
      exact (quietRun_withoutLimit rfl never' err).symm
  · have bounded := neverPushesAt_iff (m := limited) rfl out
    exact (succeeded_iff source n out err).trans (and_congr_right fun _ => bounded)

end Machine

end TypedStack
