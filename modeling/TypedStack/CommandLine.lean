import TypedStack.Machine.Run

/-!
# The command line

What a process of the command line does: it has its arguments parsed, opens the program, runs it
once, and leaves bytes on standard output, text and log records on standard error, and an exit code.
The parser of the arguments, the files and the library that shows the log are given from outside.
-/

namespace TypedStack

/-- What the arguments of the command line ask for. -/
structure Arguments where
  /-- The program file; without one the program is read from standard input. -/
  file : Option String
  /-- The greatest number of operands that the stack may hold. -/
  maxStack : Option Nat
deriving DecidableEq, Repr

/-- What a parser of arguments does in place of giving any: it prints a help or complaint to the two
standard outputs and ends the process. -/
structure Usage where
  code : Nat
  out : List UInt8
  err : List UInt8
deriving DecidableEq, Repr

/-- An opened path. -/
inductive Opened where
  /-- A file with its bytes. -/
  | file (bytes : List UInt8)
  /-- Something that can be opened but not read. -/
  | unreadable (reason : String)
deriving DecidableEq, Repr

/-- What a process leaves behind: its exit code and the two standard outputs. -/
structure Report (σ τ : Type) where
  code : Nat
  out : σ
  err : τ
deriving DecidableEq, Repr

namespace Report

variable {σ τ : Type} [Sink σ] [Sink τ]

/-- A process that its parser ends. Nothing is done about a refusal of what it prints. -/
def ofUsage (usage : Usage) (out : σ) (err : τ) : Report σ τ :=
  ⟨usage.code, (Sink.write out usage.out).2, (Sink.write err usage.err).2⟩

/-- The exit code of a process that panics. -/
def panicCode : Nat := 101

/-- A process that cannot open its program. It panics if it cannot say so. -/
def notOpened (file reason : String) (out : σ) (err : τ) : Report σ τ :=
  match Sink.write err (Text.encode s!"Error: failed to read {file}: {reason}\n") with
  | (none, err) => ⟨1, out, err⟩
  | (some _, err) => ⟨panicCode, out, err⟩

/-- A process that runs the program from a source. -/
def ofSource (log : Logger τ) (file : Option String) (source : Source) (limit : Option Nat)
    (out : σ) (err : τ) : Report σ τ :=
  let run := (Machine.start source limit).execute out
  let err := log.offer (.sourceOpened file :: run.events) err
  match run.failure with
  | none => ⟨run.exitCode, run.out, err⟩
  | some failure =>
    let (events, err) := failure.reportTo err
    ⟨run.exitCode, run.out, log.offer (events ++ [.programFailed run.machine.stack.size]) err⟩

/-- The source that an opened program file is. -/
def sourceOf : Opened → Source
  | .file bytes => .listing (.ofBytes .file bytes)
  | .unreadable reason => .unreadable 0 reason

/-- A process of the command line. `parse` reads its arguments, `openPath` opens a file or says why
it cannot, and `stdin` is all of standard input. -/
def ofArguments (parse : List String → Except Usage Arguments)
    (openPath : String → Except String Opened) (stdin : List UInt8) (arguments : List String)
    (log : Logger τ) (out : σ) (err : τ) : Report σ τ :=
  match parse arguments with
  | .error usage => ofUsage usage out err
  | .ok ⟨none, limit⟩ => ofSource log none (.listing (.ofBytes .interactive stdin)) limit out err
  | .ok ⟨some file, limit⟩ =>
    match openPath file with
    | .ok opened => ofSource log file (sourceOf opened) limit out err
    | .error reason => notOpened file reason out err

end Report

end TypedStack
