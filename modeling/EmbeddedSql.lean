import EmbeddedSql.Bracket
import EmbeddedSql.Buffer
import EmbeddedSql.Cache
import EmbeddedSql.Call
import EmbeddedSql.CommandLine.Listing
import EmbeddedSql.CommandLine.Run
import EmbeddedSql.CommandLine.Usage
import EmbeddedSql.Completion
import EmbeddedSql.Cursor
import EmbeddedSql.Database
import EmbeddedSql.Diagnostic
import EmbeddedSql.Diagnostic.Store
import EmbeddedSql.Dispatch
import EmbeddedSql.Document
import EmbeddedSql.Escape
import EmbeddedSql.Finding
import EmbeddedSql.Formatting
import EmbeddedSql.Highlight.Basic
import EmbeddedSql.Highlight.Encoding
import EmbeddedSql.Highlight.Store
import EmbeddedSql.Interpolation
import EmbeddedSql.Literal
import EmbeddedSql.Main
import EmbeddedSql.Named
import EmbeddedSql.Path
import EmbeddedSql.Position
import EmbeddedSql.Proofs.Call.Innermost
import EmbeddedSql.Proofs.Call.Occurrence
import EmbeddedSql.Proofs.Bracket.Matching
import EmbeddedSql.Proofs.Cursor.Agreement
import EmbeddedSql.Proofs.Cursor.Content
import EmbeddedSql.Proofs.Cursor.Query
import EmbeddedSql.Proofs.Document.Offset
import EmbeddedSql.Proofs.Completion.Withheld
import EmbeddedSql.Proofs.Interpolation.Automaton
import EmbeddedSql.Proofs.Interpolation.Placeholder
import EmbeddedSql.Proofs.Interpolation.RoundTrip
import EmbeddedSql.Proofs.Literal.Reading
import EmbeddedSql.Proofs.Literal.Scan
import EmbeddedSql.Proofs.Region.Specification
import EmbeddedSql.Proofs.Region.Survey
import EmbeddedSql.Proofs.Text.Occurrence
import EmbeddedSql.Region
import EmbeddedSql.Region.Store
import EmbeddedSql.Server.Basic
import EmbeddedSql.Server.Command
import EmbeddedSql.Server.Event
import EmbeddedSql.Settings.Basic
import EmbeddedSql.Settings.Check
import EmbeddedSql.Settings.Fault
import EmbeddedSql.Settings.Files
import EmbeddedSql.Settings.Merge
import EmbeddedSql.Signal
import EmbeddedSql.Suggestion
import EmbeddedSql.Text.Basic
import EmbeddedSql.Text.Class
import EmbeddedSql.Text.Numeral
import EmbeddedSql.Text.Quoted
import EmbeddedSql.Text.Ranges
import EmbeddedSql.Text.Upper
import EmbeddedSql.Token
import EmbeddedSql.Value.Basic
import EmbeddedSql.Value.Decimal
import EmbeddedSql.Value.Json
import EmbeddedSql.Value.JsonText
import EmbeddedSql.Value.Moment
import EmbeddedSql.Value.Real
import EmbeddedSql.Verdict
import EmbeddedSql.Vocabulary
import EmbeddedSql.Workspace
import EmbeddedSql.Yaml.Block
import EmbeddedSql.Yaml.Document
import EmbeddedSql.Yaml.Error
import EmbeddedSql.Yaml.Name
import EmbeddedSql.Yaml.Node
import EmbeddedSql.Yaml.Place
import EmbeddedSql.Yaml.Plain
import EmbeddedSql.Yaml.Quoted
import EmbeddedSql.Yaml.Tag
import EmbeddedSql.Yaml.Token
import EmbeddedSql.Proofs.Highlight.Store
import EmbeddedSql.Proofs.Server.History
import EmbeddedSql.Proofs.Buffer.Lines
import EmbeddedSql.Proofs.Escape.Encoding
import EmbeddedSql.Proofs.Literal.Splice
import EmbeddedSql.Proofs.Literal.Window
import EmbeddedSql.Proofs.Formatting.Edit
import EmbeddedSql.Proofs.Formatting.Guard
import EmbeddedSql.Proofs.Formatting.Indentation
import EmbeddedSql.Proofs.Formatting.Tokens
import EmbeddedSql.Proofs.Formatting.Integrity
import EmbeddedSql.Proofs.Escape.Offsets
import EmbeddedSql.Proofs.Escape.Alignment
import EmbeddedSql.Proofs.Highlight.Place
import EmbeddedSql.Proofs.Highlight.Cells
import EmbeddedSql.Proofs.Call.Comments
import EmbeddedSql.Proofs.Region.Comments
import EmbeddedSql.Proofs.Region.Content
import EmbeddedSql.Proofs.Server.Switch
import EmbeddedSql.Proofs.Token.Braces
import EmbeddedSql.Proofs.Interpolation.Spans
import EmbeddedSql.Proofs.Interpolation.Inside
import EmbeddedSql.Proofs.Interpolation.Filling
import EmbeddedSql.Proofs.Highlight.Residue
import EmbeddedSql.Proofs.Highlight.Hole
import EmbeddedSql.Proofs.Token.Tiling
import EmbeddedSql.Proofs.Token.Recognition
import EmbeddedSql.Proofs.Highlight.Relative
import EmbeddedSql.Proofs.Diagnostic.Place
import EmbeddedSql.Proofs.Document.Correspondence
import EmbeddedSql.Proofs.Document.Fragment
import EmbeddedSql.Proofs.Buffer.ClientPosition
import EmbeddedSql.Proofs.Cache.History
import EmbeddedSql.Proofs.Bracket.Nesting
import EmbeddedSql.Proofs.Region.Caps
import EmbeddedSql.Proofs.Region.Direct
import EmbeddedSql.Proofs.Call.ArgumentName
import EmbeddedSql.Proofs.Settings.Outcome
import EmbeddedSql.Proofs.Database.Statement
import EmbeddedSql.Proofs.Diagnostic.Degradation
import EmbeddedSql.Proofs.Value.Rounding
import EmbeddedSql.Proofs.Cache.Expiry
import EmbeddedSql.Proofs.Highlight.Cancellation
import EmbeddedSql.Proofs.Literal.Parity
import EmbeddedSql.Proofs.Literal.Partition
import EmbeddedSql.Proofs.Interpolation.Stem
import EmbeddedSql.Proofs.Value.Merge
import EmbeddedSql.Proofs.Settings.Section
import EmbeddedSql.Proofs.Settings.Override
