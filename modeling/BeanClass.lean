import BeanClass.Binary.Bytes
import BeanClass.Binary.Reader
import BeanClass.ClassFile.Access
import BeanClass.ClassFile.Attribute
import BeanClass.ClassFile.Basic
import BeanClass.ClassFile.Constant
import BeanClass.ClassFile.Disassembly
import BeanClass.ClassFile.Pool
import BeanClass.ClassFile.StackMap
import BeanClass.CommandLine.Command
import BeanClass.CommandLine.Inspect
import BeanClass.CommandLine.Options
import BeanClass.CommandLine.Run
import BeanClass.Compile
import BeanClass.Descriptor
import BeanClass.Diagnostic
import BeanClass.Files.Compile
import BeanClass.Files.FileSystem
import BeanClass.Files.Path
import BeanClass.Lowering.Class
import BeanClass.Lowering.Code
import BeanClass.Lowering.Layout
import BeanClass.Main
import BeanClass.Model.Assembly
import BeanClass.Model.Class
import BeanClass.Model.Instruction
import BeanClass.Name
import BeanClass.Opcode
import BeanClass.Signature.Basic
import BeanClass.Signature.Checker
import BeanClass.Source.Declaration
import BeanClass.Source.Fault
import BeanClass.Source.Line
import BeanClass.Source.Outline
import BeanClass.Source.Parser
import BeanClass.Text.Alphabetic
import BeanClass.Text.Blank
import BeanClass.Text.Cut
import BeanClass.Text.Escaped
import BeanClass.Text.ModifiedUtf8
import BeanClass.Text.Numeric
import BeanClass.Text.Quoted
import BeanClass.Text.Ranges
import BeanClass.Text.Uppercase
import BeanClass.Types.Expr
import BeanClass.Types.Platform
import BeanClass.Types.Resolution
import BeanClass.Types.Scope
import BeanClass.Verification.Access
import BeanClass.Verification.ClassFile
import BeanClass.Verification.Code
import BeanClass.Verification.Field
import BeanClass.Verification.Method
import BeanClass.Verification.Pool
import BeanClass.Proofs.Agreement
import BeanClass.Proofs.Binary.Faithful
import BeanClass.Proofs.Binary.Locality
import BeanClass.Proofs.Binary.Reading
import BeanClass.Proofs.ClassFile.CodePayload
import BeanClass.Proofs.ClassFile.Offsets
import BeanClass.Proofs.ClassFile.PrefixFree
import BeanClass.Proofs.ClassFile.Reencoding
import BeanClass.Proofs.ClassFile.RoundTrip
import BeanClass.Proofs.ClassFile.StackMap
import BeanClass.Proofs.Code.Lines
import BeanClass.Proofs.Compile
import BeanClass.Proofs.Descriptors
import BeanClass.Proofs.Descriptors.Grammar
import BeanClass.Proofs.Descriptors.Torn
import BeanClass.Proofs.Files.Compile
import BeanClass.Proofs.Files.FileSystem
import BeanClass.Proofs.Files.Path
import BeanClass.Proofs.Layout
import BeanClass.Proofs.Location
import BeanClass.Proofs.Lowering.Class
import BeanClass.Proofs.Lowering.Code
import BeanClass.Proofs.Lowering.Counts
import BeanClass.Proofs.Lowering.Frames
import BeanClass.Proofs.Lowering.Layout
import BeanClass.Proofs.Lowering.Lowerable
import BeanClass.Proofs.Lowering.StackMap
import BeanClass.Proofs.Model.Acceptance
import BeanClass.Proofs.Model.Assembly
import BeanClass.Proofs.Names
import BeanClass.Proofs.Outcomes
import BeanClass.Proofs.Pool.Growth
import BeanClass.Proofs.Pool.Operations
import BeanClass.Proofs.Pool.Runs
import BeanClass.Proofs.Semantics.Accessors
import BeanClass.Proofs.Semantics.Invocation
import BeanClass.Proofs.Signatures
import BeanClass.Proofs.Signatures.Recognition
import BeanClass.Proofs.Signatures.Strict
import BeanClass.Proofs.Source.Attribute
import BeanClass.Proofs.Source.Header
import BeanClass.Proofs.Source.Parser
import BeanClass.Proofs.Source.Printing
import BeanClass.Proofs.Source.Recognition
import BeanClass.Proofs.Text.Blank
import BeanClass.Proofs.Text.Cut
import BeanClass.Proofs.Text.Groups
import BeanClass.Proofs.Text.ModifiedUtf8
import BeanClass.Proofs.Text.Pattern
import BeanClass.Proofs.Types.Erasure
import BeanClass.Proofs.Types.KnownTypes
import BeanClass.Proofs.Types.Resolution
import BeanClass.Proofs.Types.Spelling
import BeanClass.Proofs.Verification.Accessors
import BeanClass.Proofs.Verification.Calls
import BeanClass.Proofs.Verification.ClassFile
import BeanClass.Proofs.Verification.Closed
import BeanClass.Proofs.Verification.Crashes
import BeanClass.Proofs.Verification.Execution
import BeanClass.Proofs.Verification.Flow
import BeanClass.Proofs.Verification.Frames
import BeanClass.Proofs.Verification.Listing
import BeanClass.Proofs.Verification.Overflow
import BeanClass.Proofs.Verification.Slots
import BeanClass.Proofs.Verification.Steps
import BeanClass.Proofs.Verification.Sums
import BeanClass.Proofs.Verification.Table
import BeanClass.Proofs.Verification.Torn
import BeanClass.Proofs.Verification.Visits
import BeanClass.Proofs.Verification.Walk
