import ValueGen.Code.Basic
import ValueGen.Code.Comment
import ValueGen.Code.Printer
import ValueGen.Command.Flag
import ValueGen.Command.Name
import ValueGen.Command.Run
import ValueGen.Decimal.Binary
import ValueGen.Decimal.Literal
import ValueGen.Decimal.Numeral
import ValueGen.Decimal.Shortest
import ValueGen.Digest
import ValueGen.Disk.Basic
import ValueGen.Disk.Path
import ValueGen.Failure
import ValueGen.Main
import ValueGen.Manifest.Basic
import ValueGen.Manifest.Packed
import ValueGen.Manifest.Table
import ValueGen.Names.Camel
import ValueGen.Names.Initialism
import ValueGen.Names.Snake
import ValueGen.Output.Generate
import ValueGen.Output.Log
import ValueGen.Output.Schedule
import ValueGen.Output.SourceFile
import ValueGen.Output.Writer
import ValueGen.Plan.Basic
import ValueGen.Plan.Code
import ValueGen.Plan.Scope
import ValueGen.Schema.Basic
import ValueGen.Schema.Compile
import ValueGen.Schema.Describe
import ValueGen.Schema.Field
import ValueGen.Schema.Message
import ValueGen.Schema.Primitive
import ValueGen.Schema.Rule
import ValueGen.Settings.Basic
import ValueGen.Settings.File
import ValueGen.Settings.Option
import ValueGen.Settings.Toml
import ValueGen.Settings.Yaml
import ValueGen.Source.Cursor
import ValueGen.Source.Outline
import ValueGen.Source.Position
import ValueGen.Source.Reader
import ValueGen.Source.Report
import ValueGen.Source.Statement
import ValueGen.Source.Statement.Parser
import ValueGen.Source.Token
import ValueGen.Text.Basic
import ValueGen.Text.BigEndian
import ValueGen.Text.Blank
import ValueGen.Text.Calendar
import ValueGen.Text.Digit
import ValueGen.Text.Distance
import ValueGen.Text.Glyph
import ValueGen.Text.Identifier
import ValueGen.Text.Integer
import ValueGen.Text.JsonValue
import ValueGen.Text.Letter
import ValueGen.Text.LowerCase
import ValueGen.Text.Order
import ValueGen.Text.Printable
import ValueGen.Text.Quoted
import ValueGen.Text.Ranges
import ValueGen.Text.Word
import ValueGen.Toml.Scalar
import ValueGen.Toml.Statement
import ValueGen.Toml.Table
import ValueGen.Toml.Value
import ValueGen.Value.Accumulator
import ValueGen.Value.Basic
import ValueGen.Value.Once
import ValueGen.Yaml.Character
import ValueGen.Yaml.Lexer
import ValueGen.Yaml.Meaning
import ValueGen.Yaml.Node
import ValueGen.Yaml.Scalar
import ValueGen.Yaml.Token
import ValueGen.Proofs.Disk.Entry
import ValueGen.Proofs.Disk.Making
import ValueGen.Proofs.Disk.Node
import ValueGen.Proofs.Disk.Path
import ValueGen.Proofs.Disk.Trail
import ValueGen.Proofs.Disk.Walk
import ValueGen.Proofs.Failure.Cause
import ValueGen.Proofs.Manifest.RoundTrip
import ValueGen.Proofs.Manifest.Size
import ValueGen.Proofs.Output.Attempt
import ValueGen.Proofs.Output.Call
import ValueGen.Proofs.Output.Closure
import ValueGen.Proofs.Output.Ending
import ValueGen.Proofs.Output.Exclusion
import ValueGen.Proofs.Output.Exit
import ValueGen.Proofs.Output.FileName
import ValueGen.Proofs.Output.Generation
import ValueGen.Proofs.Output.History
import ValueGen.Proofs.Output.Interruption
import ValueGen.Proofs.Output.Predeclared
import ValueGen.Proofs.Output.Repeat
import ValueGen.Proofs.Output.Saving
import ValueGen.Proofs.Output.Shadow
import ValueGen.Proofs.Output.Stale
import ValueGen.Proofs.Output.Target
import ValueGen.Proofs.Output.Writing
import ValueGen.Proofs.Plan.Capture
import ValueGen.Proofs.Plan.Declarations
import ValueGen.Proofs.Plan.Names
import ValueGen.Proofs.Plan.References
import ValueGen.Proofs.Plan.Scope
import ValueGen.Proofs.Schema.Acceptance
import ValueGen.Proofs.Schema.Collision
import ValueGen.Proofs.Schema.Faults
import ValueGen.Proofs.Schema.Keyword
import ValueGen.Proofs.Schema.Report
import ValueGen.Proofs.Text.Numeral
import ValueGen.Proofs.Schema.Consistency
import ValueGen.Proofs.Source.Label
import ValueGen.Proofs.Source.Positioned
import ValueGen.Proofs.Source.Declaration
import ValueGen.Proofs.Source.RoundTrip
import ValueGen.Proofs.Disk.Change
import ValueGen.Proofs.Disk.Reading
import ValueGen.Proofs.Failure.Input
import ValueGen.Proofs.Manifest.Storage
import ValueGen.Proofs.Output.Change
import ValueGen.Proofs.Output.Effect
import ValueGen.Proofs.Schema.Kind
import ValueGen.Proofs.Names.Camel
import ValueGen.Proofs.Plan.Encapsulation
import ValueGen.Proofs.Plan.Layout
import ValueGen.Proofs.Plan.Copies
import ValueGen.Proofs.Output.Survival
import ValueGen.Proofs.Failure.Classification
import ValueGen.Proofs.Plan.Clash
import ValueGen.Proofs.Output.Platform
import ValueGen.Proofs.Output.Unreadable
import ValueGen.Proofs.Names.RoundTrip
import ValueGen.Proofs.Output.Account
import ValueGen.Proofs.Settings.Application
import ValueGen.Proofs.Schema.Naming
import ValueGen.Proofs.Source.Recovery
