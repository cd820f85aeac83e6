import Classpath.Hierarchy
import Classpath.LogFilter.Basic
import Classpath.Settings.Inputs
import Classpath.Store.Memory
import Classpath.Proofs.Outcome
import Classpath.Proofs.Recency
import Classpath.Proofs.Termination
import Classpath.Proofs.View.Step
import Classpath.Proofs.View.Trace
import Classpath.Proofs.View.Scan
import Classpath.Proofs.View.Session
import Classpath.Proofs.View.Integrity
import Classpath.Proofs.View.Catalog
import Classpath.Proofs.Store.Memory
import Classpath.Proofs.View.Shadowing
import Classpath.Proofs.View.Eviction
import Classpath.Proofs.ClassType
import Classpath.Proofs.View.Census
import Classpath.Proofs.ClassFile.Reading
import Classpath.Proofs.ClassFile.Prefix
import Classpath.Proofs.ClassFile.Layout
import Classpath.Proofs.ClassFile.Constants
import Classpath.Proofs.ClassFile.Elements
import Classpath.Proofs.ClassFile.Accepted
import Classpath.Proofs.Descriptor
import Classpath.Proofs.ModifiedUtf8
import Classpath.Proofs.ClassFile.Nesting
import Classpath.Proofs.ClassFile.Failing
import Classpath.Proofs.ClassFile.Located
import Classpath.Proofs.ClassFile.Numbering
import Classpath.Proofs.ClassFile.Offsets
import Classpath.Proofs.View.Full
import Classpath.Proofs.View.Completion
import Classpath.Proofs.View.Fuel
import Classpath.Proofs.View.Finite
import Classpath.Proofs.View.Settled
import Classpath.Proofs.View.Described
import Classpath.Proofs.View.Recovery
import Classpath.Proofs.Hierarchy.Edges
import Classpath.Proofs.Hierarchy.Cycles
import Classpath.Proofs.Hierarchy.Ancestors
import Classpath.Proofs.Hierarchy.Answers
import Classpath.Proofs.Hierarchy.Subtypes
import Classpath.Proofs.Hierarchy.Subtyping
import Classpath.Proofs.Text
import Classpath.Proofs.Numeral
import Classpath.Proofs.TextClass.Draft
import Classpath.Proofs.TextClass.Value
import Classpath.Proofs.TextClass.Declaration
import Classpath.Proofs.TextClass.Header
import Classpath.Proofs.TextClass.Rows
import Classpath.Proofs.TextClass.RoundTrip
import Classpath.Proofs.Path
import Classpath.Proofs.Store.FileTree
import Classpath.Proofs.Store.Listing
import Classpath.Proofs.Store.ModuleImage
import Classpath.Proofs.Store.Agreement
import Classpath.Proofs.Settings.Inputs
import Classpath.Proofs.Store.ClassPath
import Classpath.Proofs.Store.Layouts
import Classpath.Proofs.Store.Interchange
import Classpath.Proofs.Hierarchy.Remembering
import Classpath.Proofs.Hierarchy.Reporting
import Classpath.Proofs.Touches
import Classpath.Proofs.Hierarchy.Indexing
import Classpath.Proofs.View.Defaults
import Classpath.Proofs.View.Eager
import Classpath.Proofs.TextClass.Edits
import Classpath.Proofs.StoredName
import Classpath.Proofs.Store.Containment
import Classpath.Proofs.Store.Resolution
import Classpath.Proofs.TextClass.Stages
import Classpath.Proofs.TextClass.Differing
import Classpath.Proofs.TextClass.Literals
import Classpath.Proofs.TextClass.CutLiterals
import Classpath.Proofs.TextClass.Layout
import Classpath.Proofs.TextClass.Clauses
import Classpath.Proofs.TextClass.Heading
import Classpath.Proofs.TextClass.Superclass
import Classpath.Proofs.TextClass.ClassLiteral
import Classpath.Proofs.TextClass.FirstFault
