import ClassSplice.Main
import ClassSplice.Splice
import ClassSplice.Roll
import ClassSplice.Callee
import ClassSplice.ClassFile
import ClassSplice.Pool
import ClassSplice.AccessFlags
import ClassSplice.Slots
import ClassSplice.Instruction.Cursor
import ClassSplice.Layout.Exact
import ClassSplice.Descriptor
import ClassSplice.Text.ModifiedUtf8
import ClassSplice.Proofs.Slots
import ClassSplice.Proofs.Outcome
import ClassSplice.Proofs.Text.Utf16
import ClassSplice.Proofs.Text.ModifiedUtf8
import ClassSplice.Proofs.Text.Rejection
import ClassSplice.Proofs.Constant
import ClassSplice.Proofs.Pool
import ClassSplice.Proofs.Indexing
import ClassSplice.Proofs.ClassFile
import ClassSplice.Proofs.Attribute
import ClassSplice.Proofs.AttributeBody
import ClassSplice.Proofs.TableParts
import ClassSplice.Proofs.LineTable
import ClassSplice.Proofs.InsertionLine
import ClassSplice.Proofs.Instruction.Walk
import ClassSplice.Proofs.Instruction.Tiling
import ClassSplice.Proofs.Instruction.Key
import ClassSplice.Proofs.Instruction.Search
import ClassSplice.Proofs.Instruction.Joining
import ClassSplice.Proofs.Name
import ClassSplice.Proofs.ClassPath
import ClassSplice.Proofs.Callee
import ClassSplice.Proofs.Resolution
import ClassSplice.Proofs.Invocations
import ClassSplice.Proofs.CallSite
import ClassSplice.Proofs.LastCall
import ClassSplice.Proofs.Descriptor
import ClassSplice.Proofs.Splice
import ClassSplice.Proofs.Session
import ClassSplice.Proofs.Listing
import ClassSplice.Proofs.Verdict
import ClassSplice.Proofs.Extension
import ClassSplice.Proofs.Store
