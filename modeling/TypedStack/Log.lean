import TypedStack.Instruction
import TypedStack.Text.Quoted

/-!
# Log

What the machine records about its work. A record has a level, a message and fields; how it is shown
is up to the library that shows it, of which no more is known here than that it shows the records of
the chosen level and those that matter more.
-/

namespace TypedStack

/-- How much of the log is shown, from nothing to everything. -/
inductive Level where
  | off
  | error
  | warn
  | info
  | debug
  | trace
deriving DecidableEq, Repr

namespace Level

/-- The position of a level in the order of detail. -/
def rank : Level → Nat
  | off => 0
  | error => 1
  | warn => 2
  | info => 3
  | debug => 4
  | trace => 5

/-- The level when none is chosen. -/
def standard : Level := warn

end Level

/-- One record of the log. -/
inductive Event where
  | sourceOpened (path : Option String)
  | runStarted (limit : Option Nat)
  | parsed (line : Nat) (op : Opcode)
  | dispatch (line : Nat) (op : Opcode) (depth : Nat)
  | arithmetic (op : BinaryOp) (kind : Kind) (left right : Operand)
  | runFinished (depth : Nat)
  | runFailed (failure : Failure)
  | notReported (reason : String)
  | programFailed (depth : Nat)
deriving DecidableEq, Repr

namespace Event

/-- The least level that shows a record. -/
def level : Event → Level
  | parsed .. | dispatch .. | arithmetic .. => .trace
  | notReported _ => .warn
  | _ => .debug

/-- What a record says. -/
def message : Event → String
  | sourceOpened _ => "program source opened"
  | runStarted _ => "run started"
  | parsed .. => "parsed"
  | dispatch .. => "dispatch"
  | arithmetic .. => "arithmetic"
  | runFinished _ => "run finished"
  | runFailed _ => "run failed"
  | notReported _ => "could not report failure"
  | programFailed _ => "program failed"

/-- How an optional field is written. -/
def optional (field : Option String) : String :=
  match field with
  | some text => s!"Some({text})"
  | none => "None"

/-- The fields of a record in their order, with their names. -/
def fields : Event → List (String × String)
  | sourceOpened path => [("path", optional (path.map Text.quote))]
  | runStarted limit => [("max_stack_size", optional (limit.map toString))]
  | parsed line op => [("line", toString line), ("opcode", op.mnemonic)]
  | dispatch line op depth =>
    [("line", toString line), ("opcode", op.mnemonic), ("depth", toString depth)]
  | arithmetic op kind left right =>
    [("op", op.name), ("kind", kind.name), ("left", left.text), ("right", right.text)]
  | runFinished depth => [("depth", toString depth)]
  | runFailed failure => [("line", toString failure.line), ("error", failure.error.message)]
  | notReported reason => [("error", reason)]
  | programFailed depth => [("depth", toString depth)]

/-- Whether a record is shown at a level. -/
def isShown (level : Level) (event : Event) : Bool := event.level.rank ≤ level.rank

end Event

/-- The library that shows records on a device with state `τ`: the level that is chosen for it, and
what becomes of the device when it shows a record. -/
structure Logger (τ : Type) where
  level : Level
  emit : τ → Event → τ

/-- Offers records to the library, which shows those of its level, in their order. -/
def Logger.offer {τ : Type} (log : Logger τ) (events : List Event) (err : τ) : τ :=
  (events.filter (·.isShown log.level)).foldl log.emit err

end TypedStack
