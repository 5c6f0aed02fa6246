import RegisterTransfer.Main
import RegisterTransfer.Pic18.Operand.Access
import RegisterTransfer.Proofs.Stream.Eager
import RegisterTransfer.Proofs.Pic18.Totality
import RegisterTransfer.Proofs.Meaning.Bits
import RegisterTransfer.Proofs.Meaning.Value
import RegisterTransfer.Proofs.Pic18.Tiling
import RegisterTransfer.Proofs.Meaning.RegisterFile
import RegisterTransfer.Proofs.Meaning.State
import RegisterTransfer.Proofs.Meaning.Execution
import RegisterTransfer.Proofs.Draft.Emission
import RegisterTransfer.Proofs.Meaning.Arithmetic
import RegisterTransfer.Proofs.X86.Repetition
import RegisterTransfer.Proofs.Pic18.Accepted
import RegisterTransfer.Proofs.Pic18.FileCell
import RegisterTransfer.Proofs.Pic18.Store
import RegisterTransfer.Proofs.Pic18.FileResult
import RegisterTransfer.Proofs.Pic18.Skip
import RegisterTransfer.Proofs.Stream.Transparency
import RegisterTransfer.Proofs.Stream.TwoPass
import RegisterTransfer.Proofs.Numeral.Hexadecimal
import RegisterTransfer.Proofs.Pic18.OperandText
import RegisterTransfer.Proofs.Pic18.Encoder
import RegisterTransfer.Proofs.Pic18.DecodedBody
import RegisterTransfer.Proofs.Pic18.RoundTrip
import RegisterTransfer.Proofs.Draft.Control
import RegisterTransfer.Proofs.Draft.Classification
import RegisterTransfer.Proofs.Pic18.Classification
import RegisterTransfer.Proofs.X86.Classification
import RegisterTransfer.Proofs.Machine
import RegisterTransfer.Proofs.Stream.Shown
import RegisterTransfer.Proofs.Sweep.Cut
import RegisterTransfer.Proofs.Sweep.Schedule
import RegisterTransfer.Proofs.Sweep.Tracer
import RegisterTransfer.Proofs.Pic18.Locality
import RegisterTransfer.Proofs.Pic18.Description
import RegisterTransfer.Proofs.Pic18.Compatibility
import RegisterTransfer.Proofs.Pic18.Legible
import RegisterTransfer.Proofs.Pic18.Lossless
import RegisterTransfer.Proofs.Draft.Ledger
import RegisterTransfer.Proofs.Pic18.Ledger
import RegisterTransfer.Proofs.X86.OperandParts
import RegisterTransfer.Proofs.X86.Ledger
import RegisterTransfer.Proofs.Stream.Record
import RegisterTransfer.Proofs.Intrinsic.Identity
import RegisterTransfer.Proofs.Pic18.Landing
import RegisterTransfer.Proofs.Draft.Additions
import RegisterTransfer.Proofs.Draft.Movement
import RegisterTransfer.Proofs.Expr.Width
import RegisterTransfer.Proofs.Pic18.Width
import RegisterTransfer.Proofs.Expr.Names
import RegisterTransfer.Proofs.Meaning.Memory
import RegisterTransfer.Proofs.Meaning.Frame
import RegisterTransfer.Proofs.Meaning.Quotient
import RegisterTransfer.Proofs.Draft.Effect
import RegisterTransfer.Proofs.X86.OperandValue
import RegisterTransfer.Proofs.X86.Place
import RegisterTransfer.Proofs.X86.Pop
import RegisterTransfer.Proofs.X86.Exchange
import RegisterTransfer.Proofs.X86.Push
import RegisterTransfer.Proofs.X86.Division
import RegisterTransfer.Proofs.X86.EffectiveAddress
import RegisterTransfer.Proofs.X86.FarPointer
import RegisterTransfer.Proofs.X86.Stack
import RegisterTransfer.Proofs.X86.StackFrame
import RegisterTransfer.Proofs.X86.GeneralRegisters
import RegisterTransfer.Proofs.X86.FloatingStack
import RegisterTransfer.Proofs.X86.RealOperand
import RegisterTransfer.Proofs.X86.FloatingPoint
import RegisterTransfer.Proofs.Pic18.Targets
import RegisterTransfer.Proofs.Pic18.Shadow
import RegisterTransfer.Proofs.Pic18.InterruptEnable
import RegisterTransfer.Proofs.Pic18.FarMove
import RegisterTransfer.Proofs.Pic18.Movement
import RegisterTransfer.Proofs.Pic18.Truncation
import RegisterTransfer.Proofs.Pic18.Directive
import RegisterTransfer.Proofs.Pic18.Report
import RegisterTransfer.Proofs.Draft.Collection
import RegisterTransfer.Proofs.X86.FlagsWritten
import RegisterTransfer.Proofs.X86.StringSource
import RegisterTransfer.Proofs.Pic18.CodeAddresses
import RegisterTransfer.Proofs.Pic18.Transfer
import RegisterTransfer.Proofs.Format.Csv
import RegisterTransfer.Proofs.Draft.Scope
import RegisterTransfer.Proofs.Pic18.Scope
import RegisterTransfer.Proofs.X86.Scope
import RegisterTransfer.Proofs.Temporaries
import RegisterTransfer.Proofs.Meaning.Storable
import RegisterTransfer.Proofs.Draft.Copying
import RegisterTransfer.Proofs.Numeral.Grammar
import RegisterTransfer.Proofs.Pic18.AddressText
import RegisterTransfer.Proofs.Pic18.ConfigText
import RegisterTransfer.Proofs.Json.Reading
import RegisterTransfer.Proofs.Json.Writing
import RegisterTransfer.Proofs.Format.Json
