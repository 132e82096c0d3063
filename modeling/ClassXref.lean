import ClassXref.ClassFile.Source
import ClassXref.Main
import ClassXref.Proofs.ClassFile.Limits
import ClassXref.Proofs.ClassFile.RoundTrip
import ClassXref.Proofs.Bytecode.Grammar
import ClassXref.Proofs.Bytecode.References
import ClassXref.Proofs.Descriptor.RoundTrip
import ClassXref.Proofs.Descriptor.Grammar
import ClassXref.Proofs.ClassFile.References
import ClassXref.Proofs.ClassFile.Declaration
import ClassXref.Proofs.Index.History
import ClassXref.Proofs.ClassFile.SelfDelimiting
import ClassXref.Proofs.Index.Hierarchy
import ClassXref.Proofs.Index.Batch
import ClassXref.Proofs.Index.Root
import ClassXref.Proofs.Index.Keys
import ClassXref.Proofs.Bytecode.Failure
import ClassXref.Proofs.Text.Acceptance
import ClassXref.Proofs.Bytes.Text
import ClassXref.Proofs.Bytes.Recovers
import ClassXref.Proofs.ClassFile.Layout
import ClassXref.Proofs.ClassFile.Acceptance
import ClassXref.Proofs.ClassFile.Medium
import ClassXref.Proofs.ClassFile.Unread
import ClassXref.Proofs.ClassFile.ArrayNames
import ClassXref.Proofs.Words.Machine
import ClassXref.Proofs.Words.Walk
import ClassXref.Proofs.Pool.Chain
import ClassXref.Proofs.ClassFile.Truncation
import ClassXref.Proofs.Index.Summary
import ClassXref.Proofs.Collect.Walk
import ClassXref.Proofs.ClassFile.ArrayTypes
import ClassXref.Proofs.Pool.Slots
import ClassXref.Proofs.Run
import ClassXref.Proofs.Config
import ClassXref.Proofs.Words.Calls
