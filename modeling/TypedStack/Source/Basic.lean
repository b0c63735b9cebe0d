import TypedStack.Source.Listing
import TypedStack.Source.Program

/-!
# Sources of instructions

Where a machine takes its instructions from.
-/

namespace TypedStack

/-- A source of instructions. -/
inductive Source where
  /-- A program in memory. -/
  | program (p : Program)
  /-- The text of a program. -/
  | listing (l : Listing)
  /-- A text whose lines cannot be read; each attempt to read one fails. -/
  | unreadable (line : Nat) (reason : String)
deriving DecidableEq, Repr

namespace Source

/-- The number of the line that was read last. -/
def line : Source → Nat
  | program p => p.line
  | listing l => l.line
  | unreadable line _ => line

/-- Pulls the next instruction. -/
def next : Source → Pull Source
  | program p => p.next.map program
  | listing l => l.next.map listing
  | unreadable line reason => ⟨.error (.device reason), unreadable (line + 1) reason, []⟩

/-- A bound on the instructions that are left before the end. -/
def remaining : Source → Nat
  | program p => p.rest.length
  | listing l => l.rest.length
  | unreadable _ _ => 0

/-- Every pulled instruction but `exit` brings the end nearer. -/
theorem remaining_next_lt {s : Source} {i : Instruction} (hi : s.next.result = .ok i)
    (hop : i.opcode ≠ .exit) :
    s.next.source.remaining < s.remaining := by
  cases s with
  | program p =>
    obtain ⟨rest, line⟩ := p
    cases rest with
    | nil =>
      cases hi
      exact absurd rfl hop
    | cons _ rest => exact Nat.lt_succ_self rest.length
  | listing l =>
    obtain ⟨mode, rest, line, finished⟩ := l
    cases finished with
    | true =>
      cases hi
      exact absurd rfl hop
    | false => exact Listing.length_rest_pull_lt hi hop
  | unreadable line reason => cases hi

end Source

end TypedStack
