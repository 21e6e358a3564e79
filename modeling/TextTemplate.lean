import TextTemplate.Bindings
import TextTemplate.Cache
import TextTemplate.Calendar.Date
import TextTemplate.Calendar.DateTime
import TextTemplate.Calendar.Pattern
import TextTemplate.Calendar.Reading
import TextTemplate.CommandLine.Arguments
import TextTemplate.CommandLine.Demo
import TextTemplate.CommandLine.Files
import TextTemplate.CommandLine.Level
import TextTemplate.CommandLine.Run
import TextTemplate.Context
import TextTemplate.Decimal
import TextTemplate.Engine.Basic
import TextTemplate.Engine.Options
import TextTemplate.Expr.Basic
import TextTemplate.Expr.Cursor
import TextTemplate.Expr.Grammar
import TextTemplate.Expr.Lexer
import TextTemplate.Expr.Token
import TextTemplate.Filter.Basic
import TextTemplate.Filter.Builtin
import TextTemplate.Json.Basic
import TextTemplate.Json.Numeral
import TextTemplate.Json.Reading
import TextTemplate.Main
import TextTemplate.Money
import TextTemplate.Number.Basic
import TextTemplate.Number.Reading
import TextTemplate.Number.Shortest
import TextTemplate.Proofs.Bindings
import TextTemplate.Proofs.Cache.History
import TextTemplate.Proofs.Cache.Inclusion
import TextTemplate.Proofs.Cache.Recency
import TextTemplate.Proofs.Calendar.Fields
import TextTemplate.Proofs.Calendar.WrittenDates
import TextTemplate.Proofs.CommandLine.AllOrNothing
import TextTemplate.Proofs.CommandLine.Lines
import TextTemplate.Proofs.CommandLine.Writing
import TextTemplate.Proofs.Decimal
import TextTemplate.Proofs.Engine.Transparency
import TextTemplate.Proofs.Engine.Verbatim
import TextTemplate.Proofs.Expr.Boundaries
import TextTemplate.Proofs.Expr.Calls
import TextTemplate.Proofs.Expr.Derivation
import TextTemplate.Proofs.Expr.Extents
import TextTemplate.Proofs.Expr.Faults
import TextTemplate.Proofs.Expr.Forms
import TextTemplate.Proofs.Expr.QuotedStrings
import TextTemplate.Proofs.Expr.Recognition
import TextTemplate.Proofs.Expr.Relocation
import TextTemplate.Proofs.Expr.Remainder
import TextTemplate.Proofs.Expr.Slices
import TextTemplate.Proofs.Expr.Spacing
import TextTemplate.Proofs.Expr.TokenRun
import TextTemplate.Proofs.Money.Cents
import TextTemplate.Proofs.Money.Reread
import TextTemplate.Proofs.Money.Text
import TextTemplate.Proofs.Number.Hundredths
import TextTemplate.Proofs.Number.Nearest
import TextTemplate.Proofs.Number.Numeral
import TextTemplate.Proofs.Number.Printed
import TextTemplate.Proofs.Number.ReadBack
import TextTemplate.Proofs.Number.Rounding
import TextTemplate.Proofs.Number.Shortest
import TextTemplate.Proofs.Outcome
import TextTemplate.Proofs.Render.Alike
import TextTemplate.Proofs.Render.Branches
import TextTemplate.Proofs.Render.Capture
import TextTemplate.Proofs.Render.Collections
import TextTemplate.Proofs.Render.Dependence
import TextTemplate.Proofs.Render.Frame
import TextTemplate.Proofs.Render.Intermediate
import TextTemplate.Proofs.Render.Names
import TextTemplate.Proofs.Render.Paths
import TextTemplate.Proofs.Render.Renaming
import TextTemplate.Proofs.Render.Scopes
import TextTemplate.Proofs.Render.Unrolling
import TextTemplate.Proofs.Source.Layout
import TextTemplate.Proofs.Source.Order
import TextTemplate.Proofs.Source.Position
import TextTemplate.Proofs.Source.Quotes
import TextTemplate.Proofs.Source.RoundTrip
import TextTemplate.Proofs.Template.Concatenation
import TextTemplate.Proofs.Template.ContentFaults
import TextTemplate.Proofs.Template.FirstFault
import TextTemplate.Proofs.Template.Marks
import TextTemplate.Proofs.Template.Nesting
import TextTemplate.Proofs.Template.OpenBlocks
import TextTemplate.Proofs.Template.Quoting
import TextTemplate.Proofs.Template.Spelling
import TextTemplate.Proofs.Template.Statement
import TextTemplate.Proofs.Template.TruePlaces
import TextTemplate.Proofs.Template.WellFormed
import TextTemplate.Proofs.Text.Trim
import TextTemplate.Proofs.Value.Equality
import TextTemplate.Proofs.Value.Numeric
import TextTemplate.Proofs.Value.Order
import TextTemplate.Proofs.Value.Parts
import TextTemplate.Proofs.Value.Printed
import TextTemplate.Render.Basic
import TextTemplate.Render.Error
import TextTemplate.Render.Expression
import TextTemplate.Source.Piece
import TextTemplate.Source.Place
import TextTemplate.Source.Scan
import TextTemplate.Template.Basic
import TextTemplate.Template.Error
import TextTemplate.Template.Parser
import TextTemplate.Text.Blank
import TextTemplate.Text.Uppercase
import TextTemplate.Text.UppercaseTable
import TextTemplate.Text.Word
import TextTemplate.Text.WordTable
import TextTemplate.Value.Basic
