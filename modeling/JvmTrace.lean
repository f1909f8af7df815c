import JvmTrace.Builder.Basic
import JvmTrace.Builder.Script
import JvmTrace.Bytes.BigEndian
import JvmTrace.Bytes.Cursor
import JvmTrace.Bytes.Reading
import JvmTrace.Bytes.Stream
import JvmTrace.ClassFile.Attribute
import JvmTrace.ClassFile.Basic
import JvmTrace.ClassFile.Format
import JvmTrace.ClassFile.View
import JvmTrace.ClassName
import JvmTrace.Command.FileSystem
import JvmTrace.Command.Host
import JvmTrace.Command.Options
import JvmTrace.Command.Path
import JvmTrace.Command.Run
import JvmTrace.Constant.Basic
import JvmTrace.Constant.Format
import JvmTrace.Decimal.Binary
import JvmTrace.Decimal.Shortest
import JvmTrace.Descriptor.Basic
import JvmTrace.Descriptor.Parser
import JvmTrace.Error
import JvmTrace.Instruction.Basic
import JvmTrace.Instruction.Decoder
import JvmTrace.Instruction.Operands
import JvmTrace.Json
import JvmTrace.Main
import JvmTrace.Opcode
import JvmTrace.Pool.Basic
import JvmTrace.Pool.Resolve
import JvmTrace.Proofs.Bytes.Reads
import JvmTrace.Proofs.Instruction.Table
import JvmTrace.Proofs.Instruction.Written
import JvmTrace.Report
import JvmTrace.Text.DefaultIgnorable
import JvmTrace.Text.GraphemeExtend
import JvmTrace.Text.Quoted
import JvmTrace.Text.Shown
import JvmTrace.Text.Unprintable
import JvmTrace.Text.Utf8
import JvmTrace.Trace.Basic
import JvmTrace.Trace.Config
import JvmTrace.Trace.Log
import JvmTrace.Proofs.Bytes.Delimited
import JvmTrace.Proofs.Instruction.Operands
import JvmTrace.Proofs.Instruction.Decode
import JvmTrace.Proofs.Instruction.Lossless
import JvmTrace.Proofs.Constant.Format
import JvmTrace.Proofs.Pool.Layout
import JvmTrace.Proofs.ClassFile.Format
import JvmTrace.Proofs.Text.ModifiedUtf8
import JvmTrace.Proofs.ClassFile.RoundTrip
import JvmTrace.Proofs.ClassFile.Canonical
import JvmTrace.Proofs.ClassFile.CodeBody
import JvmTrace.Proofs.ClassFile.View
import JvmTrace.Proofs.Descriptor.Grammar
import JvmTrace.Proofs.Trace.Selection
import JvmTrace.Proofs.Builder.Constants
import JvmTrace.Proofs.Builder.Outline
import JvmTrace.Proofs.Builder.Indices
import JvmTrace.Proofs.Builder.Doubles
import JvmTrace.Proofs.Report.Subjects
import JvmTrace.Proofs.Report.Signatures
import JvmTrace.Proofs.Json.Grammar
import JvmTrace.Proofs.Json.Printed
import JvmTrace.Proofs.Report.Readable
import JvmTrace.Proofs.Instruction.Stream
import JvmTrace.Proofs.Instruction.Volume
import JvmTrace.Proofs.Instruction.Truncation
import JvmTrace.Proofs.Instruction.Relocation
import JvmTrace.Proofs.Bytes.Faults
import JvmTrace.Proofs.Bytes.Session
import JvmTrace.Proofs.Instruction.Faults
import JvmTrace.Proofs.Command.Files
import JvmTrace.Proofs.Command.Run
import JvmTrace.Proofs.Command.Steps
import JvmTrace.Proofs.Pool.Slots
import JvmTrace.Proofs.Pool.Growth
import JvmTrace.Proofs.Instruction.Growth
import JvmTrace.Proofs.ClassFile.Lookup
import JvmTrace.Proofs.Text.Refusals
import JvmTrace.Proofs.Trace.Dependence
