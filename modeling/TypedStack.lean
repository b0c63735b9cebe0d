import TypedStack.Kind
import TypedStack.Opcode
import TypedStack.Error
import TypedStack.Text.Basic
import TypedStack.Text.Quoted
import TypedStack.Decimal.Basic
import TypedStack.Decimal.Layout
import TypedStack.Binary.Format
import TypedStack.Binary.Basic
import TypedStack.Binary.Arithmetic
import TypedStack.Binary.Shortest
import TypedStack.Binary.Text
import TypedStack.Word
import TypedStack.Value.Basic
import TypedStack.Value.Arithmetic
import TypedStack.Operand
import TypedStack.Instruction
import TypedStack.Assembly.Value
import TypedStack.Assembly.Line
import TypedStack.Log
import TypedStack.Stack
import TypedStack.Sink
import TypedStack.Source.Program
import TypedStack.Source.Listing
import TypedStack.Source.Basic
import TypedStack.Machine.Effect
import TypedStack.Machine.Step
import TypedStack.Machine.Run
import TypedStack.CommandLine
import TypedStack.Proofs.Execution
import TypedStack.Proofs.Outcome
import TypedStack.Proofs.Postfix
import TypedStack.Proofs.Limit
import TypedStack.Proofs.Lines
import TypedStack.Proofs.Transcript
import TypedStack.Proofs.Written
import TypedStack.Proofs.Agreement
import TypedStack.Proofs.ProgramText
import TypedStack.Proofs.Atomicity
import TypedStack.Proofs.Progress
import TypedStack.Proofs.LimitedRun
import TypedStack.Proofs.Output
import TypedStack.Proofs.Trace
import TypedStack.Proofs.Resumption
import TypedStack.Proofs.Loading
import TypedStack.Proofs.Depth
import TypedStack.Proofs.Frame
import TypedStack.Proofs.Capacity
import TypedStack.Proofs.DecimalText
import TypedStack.Proofs.Rounding
import TypedStack.Proofs.Shortest
import TypedStack.Proofs.BitPattern
import TypedStack.Proofs.ReadBack
import TypedStack.Proofs.Rebuilding
import TypedStack.Proofs.Sequencing
import TypedStack.Proofs.Alike
import TypedStack.Proofs.Records
import TypedStack.Proofs.Modes
import TypedStack.Proofs.Layout
import TypedStack.Proofs.Reporting
import TypedStack.Proofs.Integers
import TypedStack.Proofs.ValueGrammar
import TypedStack.Proofs.IntegerText
import TypedStack.Proofs.Assertion
import TypedStack.Proofs.Nearest
import TypedStack.Proofs.Quantity
import TypedStack.Proofs.Promotion
import TypedStack.Proofs.Faults
import TypedStack.Proofs.DecimalRounding
import TypedStack.Proofs.Remainder
import TypedStack.Proofs.Equality
import TypedStack.Proofs.LineGrammar
import TypedStack.Proofs.Logging
