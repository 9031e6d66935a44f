import LogIntake.Calendar.Date
import LogIntake.Calendar.Instant
import LogIntake.Calendar.Layout
import LogIntake.Calendar.Relaxed
import LogIntake.Command.Error
import LogIntake.Command.Files
import LogIntake.Command.Log
import LogIntake.Command.Run
import LogIntake.Command.Settings
import LogIntake.CommandLine.Help
import LogIntake.CommandLine.Invocation
import LogIntake.CommandLine.Parser
import LogIntake.Config.Settings
import LogIntake.Config.Target
import LogIntake.DataFormat
import LogIntake.Decimal.Binary64
import LogIntake.Decimal.Shortest
import LogIntake.Digest.Md5
import LogIntake.Entry
import LogIntake.Formatter
import LogIntake.InternalLabels
import LogIntake.Json.Decode
import LogIntake.Json.Lexeme
import LogIntake.Json.Number
import LogIntake.Json.Printer
import LogIntake.Json.Reader
import LogIntake.Json.Record
import LogIntake.Json.Value
import LogIntake.Label.LabelSet
import LogIntake.Label.Name
import LogIntake.Label.Publish
import LogIntake.Label.RecordLabels
import LogIntake.Main
import LogIntake.Metrics
import LogIntake.NameMap
import LogIntake.Proofs.DataFormat.Fields
import LogIntake.Proofs.Entry.Decoding
import LogIntake.Proofs.Entry.Members
import LogIntake.Proofs.Formatter.EmittedLabels
import LogIntake.Proofs.Formatter.PushAgreement
import LogIntake.Proofs.Formatter.Stages
import LogIntake.Proofs.InternalLabels.Writes
import LogIntake.Proofs.Json.Ordered
import LogIntake.Proofs.Label.NameGrammar
import LogIntake.Proofs.Label.Publication
import LogIntake.Proofs.Label.SetLookup
import LogIntake.Proofs.NameMap.Lookup
import LogIntake.Proofs.Outcome
import LogIntake.Proofs.Regex.Anchoring
import LogIntake.Proofs.Regex.Enclosing
import LogIntake.Proofs.Regex.Followed.Class
import LogIntake.Proofs.Regex.Followed.Pattern
import LogIntake.Proofs.Regex.Followed.Scanner
import LogIntake.Proofs.Regex.Fragments
import LogIntake.Proofs.Regex.Numbering
import LogIntake.Proofs.Regex.Paths
import LogIntake.Proofs.Relabel.Agreement
import LogIntake.Proofs.Relabel.Anchoring
import LogIntake.Proofs.Relabel.Compilation
import LogIntake.Push
import LogIntake.Record
import LogIntake.Regex.ByteRanges
import LogIntake.Regex.CharClass
import LogIntake.Regex.ClassParser
import LogIntake.Regex.Compiled
import LogIntake.Regex.Error
import LogIntake.Regex.Expr
import LogIntake.Regex.Flags
import LogIntake.Regex.Parser
import LogIntake.Regex.Pattern
import LogIntake.Regex.Program
import LogIntake.Regex.Scanner
import LogIntake.Regex.Search
import LogIntake.Regex.Size
import LogIntake.Regex.Template
import LogIntake.Relabel.Apply
import LogIntake.Relabel.Check
import LogIntake.Relabel.Rule
import LogIntake.Relabel.RuleFile
import LogIntake.Report
import LogIntake.Terminal
import LogIntake.Text.Base64
import LogIntake.Text.Quoted
import LogIntake.Text.Utf8
import LogIntake.Toml.Decode
import LogIntake.Toml.Parser
import LogIntake.Toml.Printer
import LogIntake.Toml.Scalar
import LogIntake.Toml.Text
import LogIntake.Toml.Tree
import LogIntake.Toml.Value
import LogIntake.Unicode.CaseMapping
import LogIntake.Unicode.CodeRanges
import LogIntake.Unicode.GeneralCategory
import LogIntake.Unicode.Property
import LogIntake.Unicode.Script
import LogIntake.Yaml.Cursor
import LogIntake.Yaml.Decode
import LogIntake.Yaml.Parser
import LogIntake.Yaml.Scalar
import LogIntake.Yaml.Token
import LogIntake.Yaml.Value
import LogIntake.Proofs.Relabel.Composition
import LogIntake.Proofs.Relabel.Effects
import LogIntake.Proofs.Relabel.ValidNames
import LogIntake.Proofs.Formatter.Promotion
import LogIntake.Proofs.Json.Faithful
import LogIntake.Proofs.Json.MemberOrder
import LogIntake.Proofs.Push.Reading
import LogIntake.Proofs.Push.Spelling
import LogIntake.Proofs.Command.LabelPrecedence
import LogIntake.Proofs.Formatter.Independence
import LogIntake.Proofs.Report.Accounting
import LogIntake.Proofs.Report.Concatenation
import LogIntake.Proofs.Command.Validity
import LogIntake.Proofs.Config.Overriding
import LogIntake.Proofs.Config.Shown
import LogIntake.Proofs.Report.ReadBack
import LogIntake.Proofs.Relabel.Frames
import LogIntake.Proofs.Formatter.Line
import LogIntake.Proofs.Entry.StatedInstant
import LogIntake.Proofs.InternalLabels.Origins
import LogIntake.Proofs.InternalLabels.Overlay
import LogIntake.Proofs.InternalLabels.Separation
import LogIntake.Proofs.Relabel.Copying
import LogIntake.Proofs.Relabel.TemplateExpansion
import LogIntake.Proofs.Label.SetHistory
import LogIntake.Proofs.Record.LabelOperations
import LogIntake.Proofs.Relabel.Filtering
import LogIntake.Proofs.Relabel.Sharding
import LogIntake.Proofs.Record.Unambiguous
import LogIntake.Proofs.Record.PrintedStamp
import LogIntake.Proofs.Entry.Agreement
import LogIntake.Proofs.Push.Layout
import LogIntake.Proofs.InternalLabels.CleanedKeys
import LogIntake.Proofs.Report.LineEndings
import LogIntake.Proofs.Command.CleanFailure
import LogIntake.Proofs.Calendar.PositionalReading
import LogIntake.Proofs.Command.LogStart
