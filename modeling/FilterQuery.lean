import FilterQuery.Binary64.Basic
import FilterQuery.Binary64.Layout
import FilterQuery.Binary64.Reader
import FilterQuery.Binary64.Shortest
import FilterQuery.Calendar.Date
import FilterQuery.Calendar.Printer
import FilterQuery.Calendar.Reader
import FilterQuery.Catalog
import FilterQuery.Clause.Basic
import FilterQuery.Clause.Compile
import FilterQuery.Clause.Json
import FilterQuery.Error
import FilterQuery.Expr.Basic
import FilterQuery.Expr.Json
import FilterQuery.Expr.Walk
import FilterQuery.FieldType
import FilterQuery.Json.Basic
import FilterQuery.Json.Decode
import FilterQuery.Json.Number
import FilterQuery.Json.Reader
import FilterQuery.Json.Text
import FilterQuery.Json.Writer
import FilterQuery.Name
import FilterQuery.Numeral
import FilterQuery.Operator
import FilterQuery.Options.Basic
import FilterQuery.Options.Describe
import FilterQuery.Options.Json
import FilterQuery.Options.Settings
import FilterQuery.Proofs.Query.Grammar
import FilterQuery.Query.Parse
import FilterQuery.Query.State
import FilterQuery.Schema.Basic
import FilterQuery.Schema.Json
import FilterQuery.Table
import FilterQuery.Text.Hidden
import FilterQuery.Text.LowerCase
import FilterQuery.Text.Quoted
import FilterQuery.Text.Ranges
import FilterQuery.Text.Whitespace
import FilterQuery.Token.Basic
import FilterQuery.Token.Cut
import FilterQuery.Token.Reader
import FilterQuery.Token.Scan
import FilterQuery.Value
import FilterQuery.Value.Json
import FilterQuery.Proofs.Query.Invariant
import FilterQuery.Proofs.Token.Cutting
import FilterQuery.Proofs.Query.Recognition
import FilterQuery.Proofs.Token.Quoting
import FilterQuery.Proofs.Query.RoundTrip
import FilterQuery.Proofs.Clause.Composition
import FilterQuery.Proofs.Clause.Noninterference
import FilterQuery.Proofs.Token.Piece
import FilterQuery.Proofs.Token.Segmentation
import FilterQuery.Proofs.Query.ViablePrefix
import FilterQuery.Proofs.Clause.Numbering
import FilterQuery.Proofs.Query.Completeness
import FilterQuery.Proofs.Catalog.Shadowing
import FilterQuery.Proofs.Clause.Meaning
import FilterQuery.Proofs.Token.Stream
import FilterQuery.Proofs.Condition.Renumbering
import FilterQuery.Proofs.Clause.Fragment
import FilterQuery.Proofs.Catalog.Visibility
import FilterQuery.Proofs.Clause.Failure
import FilterQuery.Proofs.Options.Index
import FilterQuery.Proofs.Clause.Spelling
import FilterQuery.Proofs.Json.RoundTrip
import FilterQuery.Proofs.Calendar.RoundTrip
import FilterQuery.Proofs.Json.Number
import FilterQuery.Proofs.Clause.Arguments
import FilterQuery.Proofs.Clause.RoundTrip
import FilterQuery.Proofs.Expr.RoundTrip
import FilterQuery.Proofs.Token.Fault
import FilterQuery.Proofs.Calendar.Strictness
import FilterQuery.Proofs.Clause.Typing
import FilterQuery.Proofs.Options.Collision
import FilterQuery.Proofs.Value.RoundTrip
import FilterQuery.Proofs.Schema.RoundTrip
import FilterQuery.Proofs.Query.Accumulator
import FilterQuery.Proofs.Query.OpenGroups
import FilterQuery.Proofs.Expr.Descent
