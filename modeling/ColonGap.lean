import ColonGap.CommandLine
import ColonGap.CommandLine.Flag
import ColonGap.CommandLine.Page
import ColonGap.Config.Basic
import ColonGap.Config.Decode
import ColonGap.Config.Load
import ColonGap.Config.Override
import ColonGap.Config.Parse
import ColonGap.Config.Settings
import ColonGap.Config.Validate
import ColonGap.Construct
import ColonGap.Diff
import ColonGap.Diff.Edit
import ColonGap.Diff.Hunk
import ColonGap.Diff.Lines
import ColonGap.Exclude
import ColonGap.Exclude.Wildcards
import ColonGap.Exit
import ColonGap.Failure
import ColonGap.FileTree
import ColonGap.Fix
import ColonGap.Gap
import ColonGap.KeyedList
import ColonGap.Lint
import ColonGap.Listing
import ColonGap.Log
import ColonGap.Main
import ColonGap.OptionValue
import ColonGap.Ordering
import ColonGap.Path
import ColonGap.Policy
import ColonGap.Proofs.Addresses
import ColonGap.Proofs.Arguments
import ColonGap.Proofs.Assignments
import ColonGap.Proofs.Bindings
import ColonGap.Proofs.Blanks
import ColonGap.Proofs.Characters
import ColonGap.Proofs.Choices
import ColonGap.Proofs.Colons
import ColonGap.Proofs.Decimals
import ColonGap.Proofs.Decoding
import ColonGap.Proofs.Diffs
import ColonGap.Proofs.Documents
import ColonGap.Proofs.Edits
import ColonGap.Proofs.Effects
import ColonGap.Proofs.Ends
import ColonGap.Proofs.Escapes
import ColonGap.Proofs.Exits
import ColonGap.Proofs.Extents
import ColonGap.Proofs.Files
import ColonGap.Proofs.Functions
import ColonGap.Proofs.Hunks
import ColonGap.Proofs.Items
import ColonGap.Proofs.Layers
import ColonGap.Proofs.Lines
import ColonGap.Proofs.Lists
import ColonGap.Proofs.Literals
import ColonGap.Proofs.Location
import ColonGap.Proofs.Mappings
import ColonGap.Proofs.Mending
import ColonGap.Proofs.Merge
import ColonGap.Proofs.Merging
import ColonGap.Proofs.Moves
import ColonGap.Proofs.Nodes
import ColonGap.Proofs.Numerals
import ColonGap.Proofs.Objects
import ColonGap.Proofs.Operands
import ColonGap.Proofs.Operators
import ColonGap.Proofs.Ordering
import ColonGap.Proofs.Overrides
import ColonGap.Proofs.Pace
import ColonGap.Proofs.Parts
import ColonGap.Proofs.Passage
import ColonGap.Proofs.Patch
import ColonGap.Proofs.Plan
import ColonGap.Proofs.Positions
import ColonGap.Proofs.Previews
import ColonGap.Proofs.Pruning
import ColonGap.Proofs.Readings
import ColonGap.Proofs.Reads
import ColonGap.Proofs.Recasts
import ColonGap.Proofs.Regaps
import ColonGap.Proofs.Remainders
import ColonGap.Proofs.Reports
import ColonGap.Proofs.Respacing
import ColonGap.Proofs.RuleSets
import ColonGap.Proofs.Schedules
import ColonGap.Proofs.Scripts
import ColonGap.Proofs.Seams
import ColonGap.Proofs.Sites
import ColonGap.Proofs.Statements
import ColonGap.Proofs.Substitution
import ColonGap.Proofs.Targets
import ColonGap.Proofs.Tokens
import ColonGap.Proofs.Trees
import ColonGap.Proofs.Trivia
import ColonGap.Proofs.Twins
import ColonGap.Proofs.Words
import ColonGap.Proofs.Writes
import ColonGap.RegExp.Basic
import ColonGap.RegExp.Class
import ColonGap.RegExp.Parser
import ColonGap.RegExp.Property
import ColonGap.Registry
import ColonGap.Report
import ColonGap.Report.Document
import ColonGap.Report.Json
import ColonGap.Report.Sarif
import ColonGap.Report.Text
import ColonGap.Rule
import ColonGap.Rule.BeforeColon
import ColonGap.Run
import ColonGap.Run.Result
import ColonGap.Script.Error
import ColonGap.Script.Lexer
import ColonGap.Script.Lexer.Escape
import ColonGap.Script.Lexer.Literal
import ColonGap.Script.Lexer.Numeral
import ColonGap.Script.Lexer.Trivia
import ColonGap.Script.Lexer.Word
import ColonGap.Script.Location
import ColonGap.Script.Occurrence
import ColonGap.Script.Parser
import ColonGap.Script.Parser.Basic
import ColonGap.Script.Parser.Expression
import ColonGap.Script.Parser.Function
import ColonGap.Script.Parser.Literal
import ColonGap.Script.Parser.Object
import ColonGap.Script.Parser.Pattern
import ColonGap.Script.Parser.Statement
import ColonGap.Script.Reader
import ColonGap.Script.Token
import ColonGap.Script.Tree
import ColonGap.SourceFile
import ColonGap.Target
import ColonGap.Text.Binary64
import ColonGap.Text.Blank
import ColonGap.Text.Bytes
import ColonGap.Text.Category
import ColonGap.Text.Category.Invisibles
import ColonGap.Text.Category.Letters
import ColonGap.Text.Category.Marks
import ColonGap.Text.Category.Numbers
import ColonGap.Text.Category.Punctuation
import ColonGap.Text.Category.Symbols
import ColonGap.Text.Directive
import ColonGap.Text.Graphic
import ColonGap.Text.Identifier
import ColonGap.Text.Quoted
import ColonGap.Text.Ranges
import ColonGap.Text.Table
import ColonGap.Text.Trim
import ColonGap.Text.Utf16
import ColonGap.Text.Utf8
import ColonGap.Text.WritingSystem
import ColonGap.Workspace
import ColonGap.Yaml.Characters
import ColonGap.Yaml.Decode.Basic
import ColonGap.Yaml.Decode.Key
import ColonGap.Yaml.Decode.Mapping
import ColonGap.Yaml.Error
import ColonGap.Yaml.Lexer
import ColonGap.Yaml.Lexer.Basic
import ColonGap.Yaml.Lexer.Fold
import ColonGap.Yaml.Lexer.Property
import ColonGap.Yaml.Lexer.Scalar
import ColonGap.Yaml.Lexer.Trivia
import ColonGap.Yaml.Node
import ColonGap.Yaml.Parser
import ColonGap.Yaml.Scalar
import ColonGap.Yaml.Timestamp
import ColonGap.Yaml.Token
import ColonGap.Yaml.Window
import ColonGap.Proofs.Descriptors
import ColonGap.Proofs.Keys
import ColonGap.Proofs.Registrations
import ColonGap.Proofs.Resolution
import ColonGap.Proofs.Severities
import ColonGap.Proofs.Violations
