import FieldGraph.Field.Execution
import FieldGraph.Proofs.Config.Reloading
import FieldGraph.Proofs.Document.Compiled
import FieldGraph.Proofs.Document.Names
import FieldGraph.Proofs.Document.Numbers
import FieldGraph.Proofs.Document.Places
import FieldGraph.Proofs.Document.Preorder
import FieldGraph.Proofs.Document.Rearranging
import FieldGraph.Proofs.Document.Renumbering
import FieldGraph.Proofs.Document.RoundTrip
import FieldGraph.Proofs.Document.Statements
import FieldGraph.Proofs.Field.Absent
import FieldGraph.Proofs.Field.BackLinks
import FieldGraph.Proofs.Field.Entries
import FieldGraph.Proofs.Field.Failures
import FieldGraph.Proofs.Field.Findings
import FieldGraph.Proofs.Field.Lookup
import FieldGraph.Proofs.Field.ReadOnly
import FieldGraph.Proofs.Field.Related
import FieldGraph.Proofs.Field.Responses
import FieldGraph.Proofs.Field.Siblings
import FieldGraph.Proofs.Field.Statements
import FieldGraph.Proofs.Graph.Indexed
import FieldGraph.Proofs.Ingest.Again
import FieldGraph.Proofs.Ingest.Bounds
import FieldGraph.Proofs.Ingest.Dataset
import FieldGraph.Proofs.Ingest.Embedding
import FieldGraph.Proofs.Ingest.Import
import FieldGraph.Proofs.Ingest.Labels
import FieldGraph.Proofs.Ingest.Merging
import FieldGraph.Proofs.Ingest.Parents
import FieldGraph.Proofs.Ingest.Running
import FieldGraph.Proofs.Ingest.Stages
import FieldGraph.Proofs.Json.Reading
import FieldGraph.Proofs.Number.Literal
import FieldGraph.Proofs.Search.Lines
import FieldGraph.Proofs.Search.Quoting
import FieldGraph.Proofs.Search.Results
import FieldGraph.Proofs.Search.Splitting
import FieldGraph.Proofs.Search.Statement
import FieldGraph.Proofs.Statement.Accepting
import FieldGraph.Proofs.Statement.Bindings
import FieldGraph.Proofs.Statement.Checked
import FieldGraph.Proofs.Statement.Clauses
import FieldGraph.Proofs.Statement.Comparable
import FieldGraph.Proofs.Statement.Deriving
import FieldGraph.Proofs.Statement.Grammar
import FieldGraph.Proofs.Statement.Grouping
import FieldGraph.Proofs.Statement.Lexing
import FieldGraph.Proofs.Statement.Occurrences
import FieldGraph.Proofs.Statement.PlainNames
import FieldGraph.Proofs.Statement.Reading
import FieldGraph.Proofs.Statement.Rows
import FieldGraph.Proofs.Statement.Tokens
import FieldGraph.Proofs.Store.Access
import FieldGraph.Proofs.Store.Boundary
import FieldGraph.Proofs.Store.Counting
import FieldGraph.Proofs.Store.Growth
import FieldGraph.Proofs.Store.Repeating
import FieldGraph.Proofs.Store.Selecting
import FieldGraph.Proofs.Value.Equality
import FieldGraph.Proofs.Value.Literal
import FieldGraph.Proofs.Value.ReadBack
import FieldGraph.Proofs.Value.Serialized
import FieldGraph.Store.Database
import FieldGraph.Store.Memory
import FieldGraph.Store.Scripted
import FieldGraph.Wire.Field
import FieldGraph.Wire.Graph
import FieldGraph.Wire.Store
