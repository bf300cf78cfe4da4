import RegisterVM.Bundle.Cbor
import RegisterVM.Bundle.Convert
import RegisterVM.Bundle.Wire
import RegisterVM.Bytecode.Assembler
import RegisterVM.Bytecode.Listing
import RegisterVM.Bytecode.Opcode
import RegisterVM.Bytecode.Procedure
import RegisterVM.Bytecode.View
import RegisterVM.Class.Chain
import RegisterVM.Class.Define
import RegisterVM.Class.Name
import RegisterVM.Cli.Flags
import RegisterVM.Cli.Program
import RegisterVM.Cli.World
import RegisterVM.Config.Path
import RegisterVM.Config.Settings
import RegisterVM.Config.Toml.Document
import RegisterVM.Config.Toml.Lexer
import RegisterVM.Config.Toml.Scalar
import RegisterVM.Digest.Sha256
import RegisterVM.Fault
import RegisterVM.Float.Exponential
import RegisterVM.Float.Power
import RegisterVM.Float.Shortest
import RegisterVM.Float.Text
import RegisterVM.Float.Width
import RegisterVM.Host.Bundle
import RegisterVM.Host.Enter
import RegisterVM.Host.Names
import RegisterVM.Host.Outcome
import RegisterVM.Host.Session
import RegisterVM.Machine.Basic
import RegisterVM.Machine.Boot
import RegisterVM.Machine.Call
import RegisterVM.Machine.Frames
import RegisterVM.Machine.Instruction
import RegisterVM.Machine.Run
import RegisterVM.Machine.Unwind
import RegisterVM.Native.Array
import RegisterVM.Native.Dispatch
import RegisterVM.Native.Hash
import RegisterVM.Native.Kernel
import RegisterVM.Native.Module
import RegisterVM.Native.Numeric
import RegisterVM.Native.Proc
import RegisterVM.Native.Range
import RegisterVM.Native.Support
import RegisterVM.Native.Text
import RegisterVM.Numeric.Arith
import RegisterVM.Object.Basic
import RegisterVM.Object.Primitive
import RegisterVM.Object.Table
import RegisterVM.Order.StableSort
import RegisterVM.Proofs.Class.Acyclic
import RegisterVM.Proofs.Class.Cache
import RegisterVM.Proofs.Host.Calls
import RegisterVM.Proofs.Machine.Breaks
import RegisterVM.Proofs.Machine.CatchTable
import RegisterVM.Proofs.Machine.ClosureRuns
import RegisterVM.Proofs.Machine.Closures
import RegisterVM.Proofs.Machine.Control
import RegisterVM.Proofs.Machine.Discipline
import RegisterVM.Proofs.Machine.Effect
import RegisterVM.Proofs.Machine.FrameStack
import RegisterVM.Proofs.Machine.Outline
import RegisterVM.Proofs.Machine.Stepping
import RegisterVM.Proofs.Machine.Unwinding
import RegisterVM.Store.Basic
import RegisterVM.Store.Inspect
import RegisterVM.Symbol
import RegisterVM.Text.Case
import RegisterVM.Text.Decimal
import RegisterVM.Text.Letter
import RegisterVM.Text.Printable
import RegisterVM.Text.Quoted
import RegisterVM.Text.Ranges
import RegisterVM.Text.Unicode
import RegisterVM.Value
import RegisterVM.Main
import RegisterVM.Proofs.Native.Environments
import RegisterVM.Proofs.Machine.Arguments
import RegisterVM.Proofs.Machine.Parameters
import RegisterVM.Proofs.Bundle.Decoding
import RegisterVM.Proofs.Bundle.Interning
import RegisterVM.Proofs.Bundle.RoundTrip
import RegisterVM.Proofs.Numeric.Overflow
import RegisterVM.Proofs.Bytecode.Layout
import RegisterVM.Proofs.Bytecode.Backpatch
import RegisterVM.Proofs.Class.Outer
import RegisterVM.Proofs.Class.Inclusion
import RegisterVM.Proofs.Bytecode.IntegerLoads
import RegisterVM.Proofs.Native.IntegerRanges
import RegisterVM.Proofs.Bytecode.RegisterCount
import RegisterVM.Proofs.Machine.StepCount
import RegisterVM.Proofs.Machine.StepLimit
import RegisterVM.Proofs.Numeric.FloorDivision
import RegisterVM.Proofs.Numeric.Power
import RegisterVM.Proofs.Machine.Backtraces
import RegisterVM.Proofs.Bytecode.LineTable
import RegisterVM.Machine.ArgumentView
import RegisterVM.Proofs.Machine.ArgumentView
import RegisterVM.Proofs.Class.Tables
import RegisterVM.Proofs.Class.Reflection
import RegisterVM.Proofs.Store.Rendering
import RegisterVM.Proofs.Class.Super
import RegisterVM.Proofs.Machine.SuperCalls
import RegisterVM.Proofs.Class.Metaclass
import RegisterVM.Proofs.Class.ClassMethods
import RegisterVM.Proofs.Text.Unquoting
import RegisterVM.Proofs.Store.Identity
import RegisterVM.Proofs.Machine.ExceptionSlot
import RegisterVM.Proofs.Machine.ExceptionRuns
import RegisterVM.Proofs.Machine.SlotDiscipline
