import LintHost.Analyzer
import LintHost.Check
import LintHost.Command.Options
import LintHost.Command.Run
import LintHost.Command.Settings
import LintHost.Config.Layers
import LintHost.Config.Merge
import LintHost.Config.Sections
import LintHost.Diagnostic.Basic
import LintHost.Diagnostic.Severity
import LintHost.Diagnostic.Validation
import LintHost.Engine
import LintHost.ExitStatus
import LintHost.Failure
import LintHost.FileTree
import LintHost.Glob
import LintHost.Ignore
import LintHost.Interpreter
import LintHost.Journal
import LintHost.Json.Basic
import LintHost.Json.Printer
import LintHost.Json.Reader
import LintHost.Main
import LintHost.Number.Binary64
import LintHost.Number.Shortest
import LintHost.Path
import LintHost.Plugin.Ambient
import LintHost.Plugin.Behaviour
import LintHost.Plugin.Binding
import LintHost.Plugin.Described
import LintHost.Plugin.Description
import LintHost.Plugin.Discovery
import LintHost.Plugin.ExceptionKind
import LintHost.Plugin.Importable
import LintHost.Plugin.Loader
import LintHost.Plugin.Marker
import LintHost.Plugin.Module
import LintHost.Plugin.Script
import LintHost.Proofs.Check
import LintHost.Proofs.Command.Composition
import LintHost.Proofs.Command.Delivery
import LintHost.Proofs.Command.Request
import LintHost.Proofs.Command.Stages
import LintHost.Proofs.Command.Status
import LintHost.Proofs.Command.Variants
import LintHost.Proofs.Config.Algebra
import LintHost.Proofs.Config.Faults
import LintHost.Proofs.Config.Layers
import LintHost.Proofs.Config.Overlay
import LintHost.Proofs.Diagnostic.Ends
import LintHost.Proofs.Diagnostic.Grading
import LintHost.Proofs.Dump
import LintHost.Proofs.Engine.Accounting
import LintHost.Proofs.Engine.Pool
import LintHost.Proofs.Engine.Settling
import LintHost.Proofs.Engine.Slot
import LintHost.Proofs.Engine.Unread
import LintHost.Proofs.FileTree
import LintHost.Proofs.Followable
import LintHost.Proofs.Json.Layout
import LintHost.Proofs.Json.Literal
import LintHost.Proofs.Json.Number
import LintHost.Proofs.Json.Roundtrip
import LintHost.Proofs.Lookup
import LintHost.Proofs.Naming
import LintHost.Proofs.NormalForm
import LintHost.Proofs.Path
import LintHost.Proofs.Plugin.Batch
import LintHost.Proofs.Plugin.Findings
import LintHost.Proofs.Plugin.History
import LintHost.Proofs.Plugin.Inventory
import LintHost.Proofs.Plugin.Loading
import LintHost.Proofs.Plugin.Members
import LintHost.Proofs.Plugin.Memory
import LintHost.Proofs.Plugin.Provenance
import LintHost.Proofs.Removing
import LintHost.Proofs.Report.Catalog
import LintHost.Proofs.Report.Document
import LintHost.Proofs.Report.Grading
import LintHost.Proofs.Report.Region
import LintHost.Proofs.Report.Sarif
import LintHost.Proofs.Report.Text
import LintHost.Proofs.Rules
import LintHost.Proofs.SourceText
import LintHost.Proofs.Spelling
import LintHost.Proofs.Table
import LintHost.Proofs.Target.Descriptor
import LintHost.Proofs.Target.Directory
import LintHost.Proofs.Target.Enclosing
import LintHost.Proofs.Target.Entries
import LintHost.Proofs.Target.Malformed
import LintHost.Proofs.Target.Nearest
import LintHost.Proofs.Target.Place
import LintHost.Proofs.Target.Resolution
import LintHost.Proofs.Target.Spelling
import LintHost.Proofs.Target.Suffix
import LintHost.Proofs.Target.Union
import LintHost.Proofs.Target.Units
import LintHost.Proofs.Text.Lowercase
import LintHost.Proofs.Text.Position
import LintHost.Proofs.Text.Search
import LintHost.Proofs.Text.Utf8
import LintHost.Proofs.Value.Key
import LintHost.Proofs.Walk
import LintHost.Proofs.Writing
import LintHost.Proofs.Yaml.Origin
import LintHost.Proofs.Yaml.Sound
import LintHost.Regex
import LintHost.Report.Format
import LintHost.Report.Sarif
import LintHost.Report.Text
import LintHost.Rules
import LintHost.Target
import LintHost.Text.Blank
import LintHost.Text.CaseTable
import LintHost.Text.ControlSequence
import LintHost.Text.Digit
import LintHost.Text.Half
import LintHost.Text.Lines
import LintHost.Text.Lowercase
import LintHost.Text.PathBytes
import LintHost.Text.Portion
import LintHost.Text.Printable
import LintHost.Text.Quoted
import LintHost.Text.Search
import LintHost.Text.Utf8
import LintHost.Value.Basic
import LintHost.Value.Calendar
import LintHost.Value.Display
import LintHost.Walk
import LintHost.Workspace
import LintHost.Yaml.Cursor
import LintHost.Yaml.Document
import LintHost.Yaml.Node
import LintHost.Yaml.PlainTag
import LintHost.Yaml.Scalar
import LintHost.Yaml.ScalarText
import LintHost.Yaml.Source
import LintHost.Yaml.Token
