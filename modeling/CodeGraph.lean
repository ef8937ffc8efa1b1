import CodeGraph.Main
import CodeGraph.Settings.Document
import CodeGraph.Settings.Load
import CodeGraph.Bolt.Address
import CodeGraph.Bolt.Client
import CodeGraph.Job.Report
import CodeGraph.Program.Document
import CodeGraph.Store.Memory
import CodeGraph.Proofs.Query.Cap
import CodeGraph.Proofs.Query.Clause
import CodeGraph.Proofs.Query.Confine
import CodeGraph.Proofs.Query.Isolation
import CodeGraph.Proofs.Query.Enclosure
import CodeGraph.Proofs.Program.Validity
import CodeGraph.Proofs.Program.Walk
import CodeGraph.Proofs.Program.Tagging
import CodeGraph.Proofs.Program.Permutation
import CodeGraph.Proofs.Store.Share
import CodeGraph.Proofs.Job.Plan
import CodeGraph.Proofs.Job.Outline
import CodeGraph.Proofs.Job.Replacement
import CodeGraph.Proofs.Job.World
import CodeGraph.Proofs.Job.Discipline
import CodeGraph.Proofs.Job.Integrity
import CodeGraph.Proofs.Job.Script
import CodeGraph.Proofs.Job.Tasks
import CodeGraph.Proofs.Job.Outage
import CodeGraph.Proofs.Job.Failure
import CodeGraph.Proofs.Job.Independence
import CodeGraph.Proofs.Store.Permutation
import CodeGraph.Proofs.Symbol.Grammar
import CodeGraph.Proofs.Symbol.Mangling
import CodeGraph.Proofs.Store.Row
import CodeGraph.Proofs.Store.Place
import CodeGraph.Proofs.Job.Follow
import CodeGraph.Proofs.Job.LifeCycle
import CodeGraph.Proofs.Job.Agreement
import CodeGraph.Proofs.Job.Accounting
import CodeGraph.Proofs.Bolt.Property
import CodeGraph.Proofs.Bolt.Request
import CodeGraph.Proofs.Bolt.Stamp
import CodeGraph.Proofs.Outcome
import CodeGraph.Proofs.Bolt.Sequence
import CodeGraph.Proofs.Bolt.Reading
import CodeGraph.Proofs.Bolt.Commit
import CodeGraph.Proofs.Bolt.Path
import CodeGraph.Proofs.Query.Gate
import CodeGraph.Proofs.Result.Occurrence
import CodeGraph.Proofs.Result.Incidence
import CodeGraph.Proofs.Json.Decoder
import CodeGraph.Proofs.Program.Document
import CodeGraph.Proofs.Settings.Priority
import CodeGraph.Proofs.Query.Cut
import CodeGraph.Proofs.Query.Layout
import CodeGraph.Proofs.Query.Variable
import CodeGraph.Proofs.Query.Splice
import CodeGraph.Proofs.Query.Limit
import CodeGraph.Proofs.Query.Forbidden
import CodeGraph.Proofs.Query.Tracked
import CodeGraph.Proofs.Program.Preorder
import CodeGraph.Proofs.Program.Membership
import CodeGraph.Proofs.Program.Defect
import CodeGraph.Proofs.Result.Projection
import CodeGraph.Proofs.Bolt.Encoding
import CodeGraph.Proofs.Bolt.Convertibility
import CodeGraph.Proofs.Bolt.Rendering
import CodeGraph.Proofs.Store.Naming
import CodeGraph.Proofs.Settings.Verbatim
import CodeGraph.Proofs.Store.Identity
import CodeGraph.Proofs.Bolt.Column
import CodeGraph.Proofs.Result.Arrangement
