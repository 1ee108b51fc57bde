import ImpulseTools.Lib.BitField
import ImpulseTools.Lib.Checks
import ImpulseTools.Lib.Concat
import ImpulseTools.Lib.Cyclic
import ImpulseTools.Lib.ExceptFold
import ImpulseTools.Lib.Layout
import ImpulseTools.Lib.Numbering
import ImpulseTools.Lib.Records
import ImpulseTools.Lib.Residue
import ImpulseTools.Lib.Scan
import ImpulseTools.Lib.Split
import ImpulseTools.Python.Text
import ImpulseTools.Python.Number
import ImpulseTools.Python.Float
import ImpulseTools.Asm.Opcode
import ImpulseTools.Asm.Instruction
import ImpulseTools.Asm.Data
import ImpulseTools.Asm.Encode
import ImpulseTools.Asm.Expect
import ImpulseTools.Asm.Parse
import ImpulseTools.Asm.Run
import ImpulseTools.Asm.DataBlocks
import ImpulseTools.Asm.Format
import ImpulseTools.Asm.Accept
import ImpulseTools.Asm.Directive
import ImpulseTools.Asm.Graph
import ImpulseTools.Asm.Unit
import ImpulseTools.Asm.Operand
import ImpulseTools.Asm.Reads
import ImpulseTools.Asm.Framing
import ImpulseTools.Asm.Image
import ImpulseTools.Asm.Isolation
import ImpulseTools.Asm.Overlap
import ImpulseTools.Asm.Flags
import ImpulseTools.Asm.Jump
import ImpulseTools.Asm.Reparse
import ImpulseTools.Asm.Fresh
import ImpulseTools.Asm.RoundTrip
import ImpulseTools.Asm.Storage
import ImpulseTools.Asm.InlineLoad
import ImpulseTools.Asm.Table
import ImpulseTools.Asm.Tokens
import ImpulseTools.Asm.Lines
import ImpulseTools.Asm.Comment
import ImpulseTools.Asm.WellFormed
import ImpulseTools.Asm.History
import ImpulseTools.Asm.Writable
import ImpulseTools.Asm.Spell
import ImpulseTools.Snapshot.Schema
import ImpulseTools.Snapshot.Alignment
import ImpulseTools.Snapshot.Build
import ImpulseTools.Snapshot.Checksum
import ImpulseTools.Snapshot.Distance
import ImpulseTools.Snapshot.Reader
import ImpulseTools.Verify.State
import ImpulseTools.Verify.Compare
import ImpulseTools.Verify.Suite
import ImpulseTools.Verify.Coverage
import ImpulseTools.Verify.Engines
import ImpulseTools.Verify.Symmetry
import ImpulseTools.Verify.FourWay
import ImpulseTools.Verify.ThreeWay
import ImpulseTools.Verify.Harnesses
import ImpulseTools.Verify.Verdict
import ImpulseTools.Verify.Golden
import ImpulseTools.Fuzz.Contract
import ImpulseTools.Fuzz.Generate
import ImpulseTools.Fuzz.Assemble
import ImpulseTools.Fuzz.Accept
import ImpulseTools.Fuzz.Program
import ImpulseTools.Fuzz.Campaign
import ImpulseTools.Fuzz.Variant
import ImpulseTools.Fuzz.Types
import ImpulseTools.Fuzz.Agree
import ImpulseTools.Fuzz.Replay
import ImpulseTools.Fuzz.Select
import ImpulseTools.Fuzz.Reach
