import VirtualClasspath.Assembly.Write
import VirtualClasspath.ClassFile.Mention
import VirtualClasspath.ClassFile.Nesting
import VirtualClasspath.Sorted.Map
import VirtualClasspath.Text.Cut
import VirtualClasspath.Category
import VirtualClasspath.Options
import VirtualClasspath.Issue
import VirtualClasspath.Journal
import VirtualClasspath.Provider
import VirtualClasspath.CompileError
import VirtualClasspath.Closure.Set
import VirtualClasspath.Closure.Draft
import VirtualClasspath.Host
import VirtualClasspath.Cell
import VirtualClasspath.View
import VirtualClasspath.Repair
import VirtualClasspath.Backend
import VirtualClasspath.Compiler
import VirtualClasspath.Toml.Scan
import VirtualClasspath.Toml.Text
import VirtualClasspath.Toml.Number
import VirtualClasspath.Toml.Value
import VirtualClasspath.Toml.Document
import VirtualClasspath.Configuration.Basic
import VirtualClasspath.Proofs.Text
import VirtualClasspath.Proofs.Signature.Plain
import VirtualClasspath.Proofs.Signature.Tree
import VirtualClasspath.Proofs.Signature.Reading
import VirtualClasspath.Proofs.Signature.Exact
import VirtualClasspath.Proofs.ClassFile.Mentions
import VirtualClasspath.Proofs.Provider
import VirtualClasspath.Proofs.Nest
import VirtualClasspath.Proofs.Closure.Phases
import VirtualClasspath.Proofs.Closure.Exact
import VirtualClasspath.Proofs.Closure.Enclosed
import VirtualClasspath.Proofs.Sorted
import VirtualClasspath.Proofs.View.Listing
import VirtualClasspath.Proofs.View.Scan
import VirtualClasspath.Proofs.View.HostRoot
import VirtualClasspath.Proofs.View.Membership
import VirtualClasspath.Proofs.Compiler.Outputs
import VirtualClasspath.Proofs.Compiler.Shape
import VirtualClasspath.Proofs.Assembly.Bytes
import VirtualClasspath.Proofs.Assembly.Pool
import VirtualClasspath.Proofs.Assembly.Annotations
import VirtualClasspath.Proofs.Assembly.Code
import VirtualClasspath.Proofs.Assembly.Attributes
import VirtualClasspath.Proofs.Assembly.Member
import VirtualClasspath.Proofs.Assembly.Class
import VirtualClasspath.Proofs.Closure.Isolation
import VirtualClasspath.Proofs.ClassFile.Delimited
import VirtualClasspath.Proofs.ClassFile.InstructionSet
import VirtualClasspath.Proofs.ClassFile.Decoding
import VirtualClasspath.Proofs.Nest.Members
import VirtualClasspath.Proofs.Closure.Moves
import VirtualClasspath.Proofs.View.Substitution
import VirtualClasspath.Proofs.Closure.Accounts
import VirtualClasspath.Proofs.Logging.Discreet
import VirtualClasspath.Proofs.Logging.Closure
import VirtualClasspath.Proofs.Logging.Compiler
import VirtualClasspath.Proofs.Compiler.Reuse
import VirtualClasspath.Proofs.Nest.Requests
import VirtualClasspath.Proofs.Nest.Exact
import VirtualClasspath.Proofs.ClassFile.ModifiedUtf8
import VirtualClasspath.Proofs.Closure.OuterWalk
import VirtualClasspath.Proofs.Closure.Strays
import VirtualClasspath.Proofs.Repair
import VirtualClasspath.Proofs.Cell
import VirtualClasspath.Proofs.ClassFile.Depth
import VirtualClasspath.Proofs.Options
import VirtualClasspath.Proofs.Assembly.Numbering
import VirtualClasspath.Proofs.Signature.Bytewise
import VirtualClasspath.Proofs.Signature.Agreement
