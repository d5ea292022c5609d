import WorkItemQuery.Arguments
import WorkItemQuery.Batch.Basic
import WorkItemQuery.Batch.Split
import WorkItemQuery.Command.Basic
import WorkItemQuery.Command.Failure
import WorkItemQuery.Compilation.Basic
import WorkItemQuery.Compilation.Error
import WorkItemQuery.Compilation.Walk
import WorkItemQuery.Digest.Sha256
import WorkItemQuery.Expr.Basic
import WorkItemQuery.Expr.Json
import WorkItemQuery.Fields.Builtin
import WorkItemQuery.Fields.Json
import WorkItemQuery.Fields.Mapper
import WorkItemQuery.Fields.Mapping
import WorkItemQuery.Fields.Registry
import WorkItemQuery.Fields.Yaml
import WorkItemQuery.Files.Directory
import WorkItemQuery.Files.Error
import WorkItemQuery.Files.Path
import WorkItemQuery.Json.Reader
import WorkItemQuery.Json.Value
import WorkItemQuery.Json.Writer
import WorkItemQuery.Log.Filter
import WorkItemQuery.Log.Notice
import WorkItemQuery.Log.Output
import WorkItemQuery.Main
import WorkItemQuery.Number.Decimal
import WorkItemQuery.Number.Double
import WorkItemQuery.Number.Reading
import WorkItemQuery.Number.Scaling
import WorkItemQuery.Pipeline.Basic
import WorkItemQuery.Pipeline.Grammar
import WorkItemQuery.Pipeline.Lexeme
import WorkItemQuery.Pipeline.Meaning
import WorkItemQuery.Pipeline.Parse
import WorkItemQuery.Pipeline.Rule
import WorkItemQuery.Proofs.Batch.OneLine
import WorkItemQuery.Proofs.Batch.Partition
import WorkItemQuery.Proofs.Batch.Split
import WorkItemQuery.Proofs.Command.AllOrNothing
import WorkItemQuery.Proofs.Command.LogFiles
import WorkItemQuery.Proofs.Compilation.Declarative
import WorkItemQuery.Proofs.Compilation.DefaultSelection
import WorkItemQuery.Proofs.Compilation.FilterClauses
import WorkItemQuery.Proofs.Compilation.Fragments
import WorkItemQuery.Proofs.Compilation.FromText
import WorkItemQuery.Proofs.Compilation.Groups
import WorkItemQuery.Proofs.Compilation.Growth
import WorkItemQuery.Proofs.Compilation.Interleaving
import WorkItemQuery.Proofs.Compilation.Members
import WorkItemQuery.Proofs.Compilation.NormalForm
import WorkItemQuery.Proofs.Compilation.ReadBack
import WorkItemQuery.Proofs.Compilation.Refusal
import WorkItemQuery.Proofs.Compilation.Rendering
import WorkItemQuery.Proofs.Compilation.Selection
import WorkItemQuery.Proofs.Compilation.Simulation
import WorkItemQuery.Proofs.Compilation.Supported
import WorkItemQuery.Proofs.Compilation.Visits
import WorkItemQuery.Proofs.Expr.Json
import WorkItemQuery.Proofs.Fields.History
import WorkItemQuery.Proofs.Fields.Json
import WorkItemQuery.Proofs.Fields.Memo
import WorkItemQuery.Proofs.Files.Directory
import WorkItemQuery.Proofs.Json.Text
import WorkItemQuery.Proofs.Number.Digits
import WorkItemQuery.Proofs.Number.Double
import WorkItemQuery.Proofs.Pipeline.Accepted
import WorkItemQuery.Proofs.Pipeline.Breaks
import WorkItemQuery.Proofs.Pipeline.Condition
import WorkItemQuery.Proofs.Pipeline.Instants
import WorkItemQuery.Proofs.Pipeline.Layout
import WorkItemQuery.Proofs.Pipeline.Lexeme
import WorkItemQuery.Proofs.Pipeline.Literals
import WorkItemQuery.Proofs.Pipeline.Meaning
import WorkItemQuery.Proofs.Pipeline.Printing
import WorkItemQuery.Proofs.Pipeline.Produced
import WorkItemQuery.Proofs.Pipeline.Program
import WorkItemQuery.Proofs.Pipeline.Quoting
import WorkItemQuery.Proofs.Pipeline.Relation
import WorkItemQuery.Proofs.Pipeline.Rule
import WorkItemQuery.Proofs.Pipeline.Value
import WorkItemQuery.Proofs.Pipeline.Zone
import WorkItemQuery.Proofs.Statement.Json
import WorkItemQuery.Proofs.Text.ByteOrder
import WorkItemQuery.Proofs.Text.Feeds
import WorkItemQuery.Proofs.Text.Lines
import WorkItemQuery.Proofs.Text.Scan
import WorkItemQuery.Proofs.Time.Calendar
import WorkItemQuery.Proofs.Time.Rfc3339
import WorkItemQuery.Proofs.Time.Text
import WorkItemQuery.Settings.Basic
import WorkItemQuery.Settings.DotEnv
import WorkItemQuery.Statement.Basic
import WorkItemQuery.Statement.Fragment
import WorkItemQuery.Statement.Json
import WorkItemQuery.Text.Alphanumeric
import WorkItemQuery.Text.CharSet
import WorkItemQuery.Text.Lines
import WorkItemQuery.Text.Lowercase
import WorkItemQuery.Text.Scan
import WorkItemQuery.Text.Visible
import WorkItemQuery.Time.Date
import WorkItemQuery.Time.Reading
import WorkItemQuery.Time.Timestamp
import WorkItemQuery.Yaml.Cursor
import WorkItemQuery.Yaml.Layout
import WorkItemQuery.Yaml.Node
import WorkItemQuery.Yaml.Property
import WorkItemQuery.Yaml.Reader
import WorkItemQuery.Yaml.Scalar
import WorkItemQuery.Yaml.Token
