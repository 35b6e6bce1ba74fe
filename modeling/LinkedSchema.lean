import LinkedSchema.Build.Builder
import LinkedSchema.Build.Shapes
import LinkedSchema.Build.TypeOf
import LinkedSchema.Decimal.Binary
import LinkedSchema.Decimal.Shortest
import LinkedSchema.Entries
import LinkedSchema.Fault
import LinkedSchema.Json.Display
import LinkedSchema.Json.Number
import LinkedSchema.Json.NumberText
import LinkedSchema.Json.Printer
import LinkedSchema.Json.Reader
import LinkedSchema.Json.Value
import LinkedSchema.Naming.Allocator
import LinkedSchema.Naming.SafeString
import LinkedSchema.Normalize.Options
import LinkedSchema.Normalize.Pipeline
import LinkedSchema.Normalize.Rules
import LinkedSchema.Schema.Category
import LinkedSchema.Schema.Definitions
import LinkedSchema.Schema.Document
import LinkedSchema.Schema.Export
import LinkedSchema.Schema.Graph
import LinkedSchema.Schema.Ingest
import LinkedSchema.Schema.Node
import LinkedSchema.Schema.Refusal
import LinkedSchema.Schema.Walk
import LinkedSchema.Text.Blank
import LinkedSchema.Text.CodeRange
import LinkedSchema.Text.Combining
import LinkedSchema.Text.CommentEnd
import LinkedSchema.Text.DecimalDigit
import LinkedSchema.Text.Decomposition
import LinkedSchema.Text.Decomposition.Table
import LinkedSchema.Text.Hex
import LinkedSchema.Text.Lines
import LinkedSchema.Text.Printable
import LinkedSchema.Text.Quoted
import LinkedSchema.Types.Export
import LinkedSchema.Types.Graph
import LinkedSchema.Types.Node
import LinkedSchema.Proofs.Build.Plain
import LinkedSchema.Proofs.Build.Contract
import LinkedSchema.Proofs.Build.Copying
import LinkedSchema.Proofs.Build.ShapeForms
import LinkedSchema.Proofs.Build.NodeForms
import LinkedSchema.Proofs.Build.Filling
import LinkedSchema.Proofs.Build.Levels
import LinkedSchema.Proofs.Build.Agreement
import LinkedSchema.Proofs.Build.Bounds
import LinkedSchema.Proofs.Types.Order
import LinkedSchema.Proofs.Schema.Parents
import LinkedSchema.Proofs.Build.Fuel
import LinkedSchema.Proofs.Build.Termination
import LinkedSchema.Proofs.Normalize.Passes
import LinkedSchema.Proofs.Normalize.Descriptions
import LinkedSchema.Proofs.Normalize.Rules
import LinkedSchema.Proofs.Normalize.Edges
import LinkedSchema.Proofs.Normalize.Normal
import LinkedSchema.Proofs.Normalize.Idempotent
import LinkedSchema.Proofs.Json.Same
import LinkedSchema.Proofs.Types.Labels
import LinkedSchema.Proofs.Types.Writing
import LinkedSchema.Proofs.Types.Encoding
import LinkedSchema.Proofs.Types.Isomorphism
import LinkedSchema.Proofs.Types.Lossless
import LinkedSchema.Proofs.Normalize.Local
import LinkedSchema.Proofs.Build.Plan
import LinkedSchema.Proofs.Build.Planned
import LinkedSchema.Proofs.Build.Outcomes
import LinkedSchema.Proofs.Build.Names
import LinkedSchema.Proofs.Build.Naming
import LinkedSchema.Proofs.Build.Calls
import LinkedSchema.Proofs.Build.Leftovers
import LinkedSchema.Proofs.Build.Sifting
import LinkedSchema.Proofs.Build.Sessions
import LinkedSchema.Proofs.Search
import LinkedSchema.Proofs.Schema.Links
import LinkedSchema.Proofs.Schema.Traversal
import LinkedSchema.Proofs.Schema.Places
import LinkedSchema.Proofs.Schema.Intake
import LinkedSchema.Proofs.Schema.Reading
import LinkedSchema.Proofs.Schema.Readers
import LinkedSchema.Proofs.Schema.Ingestion
import LinkedSchema.Proofs.Schema.Faithful
import LinkedSchema.Proofs.Schema.Tidy
import LinkedSchema.Proofs.Schema.RoundTrip
import LinkedSchema.Proofs.Naming.SafeString
import LinkedSchema.Proofs.Build.Notes
import LinkedSchema.Proofs.Build.Remarks
import LinkedSchema.Proofs.Build.Comments
import LinkedSchema.Proofs.Normalize.Whole
import LinkedSchema.Proofs.Schema.Contents
import LinkedSchema.Proofs.Build.CommentEnds
import LinkedSchema.Proofs.Merging
import LinkedSchema.Proofs.Schema.Collection
import LinkedSchema.Proofs.Schema.Declarations
import LinkedSchema.Proofs.Schema.Documented
import LinkedSchema.Proofs.Schema.Unfolding
import LinkedSchema.Proofs.Schema.Reingestion
import LinkedSchema.Proofs.Build.Log
import LinkedSchema.Proofs.Build.Reuse
import LinkedSchema.Proofs.Build.Repeats
import LinkedSchema.Proofs.Build.Origins
import LinkedSchema.Proofs.Build.Represented
import LinkedSchema.Proofs.Build.Failures
import LinkedSchema.Proofs.Types.Layout
import LinkedSchema.Proofs.Types.Placement
import LinkedSchema.Proofs.Build.Mentions
import LinkedSchema.Proofs.Build.Credits
import LinkedSchema.Proofs.Build.Noted
import LinkedSchema.Proofs.Schema.Orphans
import LinkedSchema.Proofs.Schema.Renumbering
import LinkedSchema.Proofs.Normalize.Renumbering
import LinkedSchema.Proofs.Normalize.Parents
import LinkedSchema.Proofs.Build.Housing
import LinkedSchema.Proofs.Build.Twins
import LinkedSchema.Proofs.Build.Parentless
import LinkedSchema.Proofs.Naming.Opening
import LinkedSchema.Proofs.Schema.Steady
import LinkedSchema.Proofs.Normalize.Conflicts
import LinkedSchema.Proofs.Normalize.Required
import LinkedSchema.Proofs.Types.Leaves
import LinkedSchema.Proofs.Normalize.Enumerations
import LinkedSchema.Proofs.Build.Enumerations
import LinkedSchema.Proofs.Naming.PascalCase
import LinkedSchema.Proofs.Naming.Freshness
import LinkedSchema.Proofs.Build.Amending
import LinkedSchema.Proofs.Build.Members
import LinkedSchema.Proofs.Schema.Hosting
import LinkedSchema.Proofs.Normalize.Hosting
import LinkedSchema.Proofs.Schema.Arrays
import LinkedSchema.Proofs.Normalize.Arrays
import LinkedSchema.Proofs.Build.Renumbering
import LinkedSchema.Proofs.Build.Hosting
import LinkedSchema.Proofs.Build.Arrays
import LinkedSchema.Proofs.Lockstep
import LinkedSchema.Proofs.Schema.Omissions
import LinkedSchema.Proofs.Schema.Accord
import LinkedSchema.Proofs.Normalize.Typed
import LinkedSchema.Proofs.Normalize.Documenting
import LinkedSchema.Proofs.Normalize.Alterations
import LinkedSchema.Proofs.Normalize.Abreast
import LinkedSchema.Proofs.Normalize.Rebounds
import LinkedSchema.Proofs.Normalize.Plural
import LinkedSchema.Proofs.Build.Filing
import LinkedSchema.Proofs.Build.Typing
import LinkedSchema.Proofs.Build.Tuples
import LinkedSchema.Proofs.Build.Tandem
import LinkedSchema.Proofs.Build.Kindred
import LinkedSchema.Proofs.Build.Likewise
import LinkedSchema.Proofs.Build.Stripped
import LinkedSchema.Proofs.Build.Defaultless
import LinkedSchema.Proofs.Build.Narrowed
