import SchemaDecl.Command.Arguments
import SchemaDecl.Command.Run
import SchemaDecl.Compile
import SchemaDecl.Declaration.Comment
import SchemaDecl.Declaration.Document
import SchemaDecl.Declaration.Inline
import SchemaDecl.Declaration.Key
import SchemaDecl.Declaration.Tuple
import SchemaDecl.Document.Basic
import SchemaDecl.Document.Category
import SchemaDecl.Document.Definitions
import SchemaDecl.Document.Lineage
import SchemaDecl.Document.Normal
import SchemaDecl.Document.Pointer
import SchemaDecl.Document.Position
import SchemaDecl.Document.Reference
import SchemaDecl.Document.Rule
import SchemaDecl.Document.Value
import SchemaDecl.Files.Basic
import SchemaDecl.Files.Path
import SchemaDecl.Files.Pattern
import SchemaDecl.Files.Search
import SchemaDecl.Json.Basic
import SchemaDecl.Json.Decimal
import SchemaDecl.Json.Double
import SchemaDecl.Json.Fault
import SchemaDecl.Json.Numeral
import SchemaDecl.Json.Reader
import SchemaDecl.Json.Skip
import SchemaDecl.Json.Text
import SchemaDecl.Keyed
import SchemaDecl.Main
import SchemaDecl.Names
import SchemaDecl.Proofs.Command.Outputs
import SchemaDecl.Proofs.Course
import SchemaDecl.Proofs.Declaration.Calls
import SchemaDecl.Proofs.Declaration.Comment
import SchemaDecl.Proofs.Declaration.Coverage
import SchemaDecl.Proofs.Declaration.Entries
import SchemaDecl.Proofs.Declaration.Ink
import SchemaDecl.Proofs.Declaration.Layout
import SchemaDecl.Proofs.Declaration.Loops
import SchemaDecl.Proofs.Declaration.Tuple
import SchemaDecl.Proofs.Document.Alteration
import SchemaDecl.Proofs.Document.Bounds
import SchemaDecl.Proofs.Document.Chain
import SchemaDecl.Proofs.Document.Closed
import SchemaDecl.Proofs.Document.Distinct
import SchemaDecl.Proofs.Document.Edits
import SchemaDecl.Proofs.Document.Form
import SchemaDecl.Proofs.Document.Growth
import SchemaDecl.Proofs.Document.NormalForm
import SchemaDecl.Proofs.Document.Reach
import SchemaDecl.Proofs.Document.Reading
import SchemaDecl.Proofs.Document.Redirection
import SchemaDecl.Proofs.Document.Spanning
import SchemaDecl.Proofs.Document.Value
import SchemaDecl.Proofs.Document.Ways
import SchemaDecl.Proofs.Keyed
import SchemaDecl.Proofs.Names
import SchemaDecl.Proofs.Spare.Compile
import SchemaDecl.Proofs.Text.TypeName
import SchemaDecl.Proofs.Types.Bounds
import SchemaDecl.Proofs.Types.Comments
import SchemaDecl.Proofs.Types.Descent
import SchemaDecl.Proofs.Types.Enclosure
import SchemaDecl.Proofs.Types.Fields
import SchemaDecl.Proofs.Types.Labels
import SchemaDecl.Proofs.Types.Lookups
import SchemaDecl.Proofs.Types.Lowering
import SchemaDecl.Proofs.Types.Making
import SchemaDecl.Proofs.Types.Naming
import SchemaDecl.Proofs.Types.Narrowing
import SchemaDecl.Proofs.Types.Notes
import SchemaDecl.Proofs.Types.Outcome
import SchemaDecl.Proofs.Types.Pool
import SchemaDecl.Proofs.Types.Portrait
import SchemaDecl.Proofs.Types.Provenance
import SchemaDecl.Proofs.Types.Rest
import SchemaDecl.Proofs.Types.Simplify
import SchemaDecl.Proofs.Types.Trail
import SchemaDecl.Proofs.Types.Tuples
import SchemaDecl.Proofs.Types.Visiting
import SchemaDecl.Proofs.Unbounded.Compile
import SchemaDecl.Proofs.Walk
import SchemaDecl.Proofs.Walk.Embedding
import SchemaDecl.Settings
import SchemaDecl.Settings.Decode
import SchemaDecl.Text.Accent
import SchemaDecl.Text.Digit
import SchemaDecl.Text.Hidden
import SchemaDecl.Text.Mark
import SchemaDecl.Text.Range
import SchemaDecl.Text.Space
import SchemaDecl.Text.Split
import SchemaDecl.Text.TypeName
import SchemaDecl.Text.Utf8
import SchemaDecl.Text.Visible
import SchemaDecl.Types.Basic
import SchemaDecl.Types.Build
import SchemaDecl.Types.Lowering
import SchemaDecl.Types.Record
import SchemaDecl.Types.Simplify
import SchemaDecl.Walk
import SchemaDecl.Proofs.Document.Pointer
import SchemaDecl.Proofs.Text.Identifier
import SchemaDecl.Proofs.Declaration.Key
import SchemaDecl.Proofs.Document.Reassembly
import SchemaDecl.Proofs.Document.Registration
