import ErdSql.Advice
import ErdSql.BaseType
import ErdSql.Cache
import ErdSql.Cache.Folder
import ErdSql.Cache.Record
import ErdSql.Check
import ErdSql.Check.Balance
import ErdSql.Check.Default
import ErdSql.CommandLine
import ErdSql.CommandLine.Command
import ErdSql.CommandLine.Flag
import ErdSql.CommandLine.Help
import ErdSql.CommandLine.Request
import ErdSql.CommandLine.Settings
import ErdSql.CommandLine.Suggestion
import ErdSql.Compilation
import ErdSql.Corruption
import ErdSql.Ddl.Generator
import ErdSql.Ddl.NameTable
import ErdSql.Ddl.Output
import ErdSql.Ddl.Statement
import ErdSql.Decimal
import ErdSql.Diagnostic
import ErdSql.Diagnostic.Render
import ErdSql.Diagnostic.Snippet
import ErdSql.Dialect
import ErdSql.Dialect.Registry
import ErdSql.Digest.HashTree
import ErdSql.Digest.Key
import ErdSql.Digest.Sha256
import ErdSql.Document
import ErdSql.Document.Cursor
import ErdSql.Document.Parser
import ErdSql.Duration
import ErdSql.FileSet
import ErdSql.FileTree
import ErdSql.FileTree.Changes
import ErdSql.Generation
import ErdSql.Generation.Layout
import ErdSql.Generation.Summary
import ErdSql.Generation.World
import ErdSql.Glob
import ErdSql.Instant
import ErdSql.Json
import ErdSql.Json.Reader
import ErdSql.Log
import ErdSql.Main
import ErdSql.Overlay
import ErdSql.Overlay.Reader
import ErdSql.Path
import ErdSql.Plugin
import ErdSql.Project
import ErdSql.Project.Settings
import ErdSql.Proofs.Acceptance
import ErdSql.Proofs.AddedFields
import ErdSql.Proofs.Balance
import ErdSql.Proofs.Boundaries
import ErdSql.Proofs.CacheFolders
import ErdSql.Proofs.Caching
import ErdSql.Proofs.Carets
import ErdSql.Proofs.Clauses
import ErdSql.Proofs.ColumnLists
import ErdSql.Proofs.ColumnTypes
import ErdSql.Proofs.CommentFree
import ErdSql.Proofs.Constraints
import ErdSql.Proofs.Coordinates
import ErdSql.Proofs.CopiedTexts
import ErdSql.Proofs.Copies
import ErdSql.Proofs.DerivedNames
import ErdSql.Proofs.Dispatch
import ErdSql.Proofs.DisplacedReaders
import ErdSql.Proofs.Displacement
import ErdSql.Proofs.DoubleStars
import ErdSql.Proofs.Drift
import ErdSql.Proofs.Encoding
import ErdSql.Proofs.EntityBlocks
import ErdSql.Proofs.EntityLines
import ErdSql.Proofs.EntryKeys
import ErdSql.Proofs.EnumNotations
import ErdSql.Proofs.Expressions
import ErdSql.Proofs.Extents
import ErdSql.Proofs.Faultless
import ErdSql.Proofs.Fidelity
import ErdSql.Proofs.FieldLines
import ErdSql.Proofs.FileTrees
import ErdSql.Proofs.Findings
import ErdSql.Proofs.FollowUps
import ErdSql.Proofs.Freshness
import ErdSql.Proofs.Grammar
import ErdSql.Proofs.Handlers
import ErdSql.Proofs.HashTree
import ErdSql.Proofs.Heads
import ErdSql.Proofs.Integrity
import ErdSql.Proofs.JsonText
import ErdSql.Proofs.Keepings
import ErdSql.Proofs.KeyTargets
import ErdSql.Proofs.KeyTypes
import ErdSql.Proofs.LexemeEnds
import ErdSql.Proofs.Lexemes
import ErdSql.Proofs.LineEnds
import ErdSql.Proofs.ListDefaults
import ErdSql.Proofs.Locality
import ErdSql.Proofs.Lookahead
import ErdSql.Proofs.Mirroring
import ErdSql.Proofs.MovedOverlays
import ErdSql.Proofs.NameTables
import ErdSql.Proofs.NormalForms
import ErdSql.Proofs.Normalization
import ErdSql.Proofs.NumericDefaults
import ErdSql.Proofs.Overrides
import ErdSql.Proofs.Parentheses
import ErdSql.Proofs.Patches
import ErdSql.Proofs.Paths
import ErdSql.Proofs.Phrase
import ErdSql.Proofs.Pieces
import ErdSql.Proofs.Placement
import ErdSql.Proofs.PolicyClauses
import ErdSql.Proofs.Positions
import ErdSql.Proofs.QuotedTexts
import ErdSql.Proofs.Reading
import ErdSql.Proofs.Records
import ErdSql.Proofs.References
import ErdSql.Proofs.Registrations
import ErdSql.Proofs.Relationships
import ErdSql.Proofs.Remarks
import ErdSql.Proofs.Renumbering
import ErdSql.Proofs.Requests
import ErdSql.Proofs.Resolution
import ErdSql.Proofs.Resumption
import ErdSql.Proofs.RoundTrip
import ErdSql.Proofs.Rounds
import ErdSql.Proofs.Runs
import ErdSql.Proofs.Scanning
import ErdSql.Proofs.ScriptFiles
import ErdSql.Proofs.Selection
import ErdSql.Proofs.Sentences
import ErdSql.Proofs.Separators
import ErdSql.Proofs.Snippets
import ErdSql.Proofs.SourceOrder
import ErdSql.Proofs.StatementKeys
import ErdSql.Proofs.StatementTexts
import ErdSql.Proofs.Statements
import ErdSql.Proofs.Steps
import ErdSql.Proofs.StringLiterals
import ErdSql.Proofs.TableKeys
import ErdSql.Proofs.TableText
import ErdSql.Proofs.TokenRanges
import ErdSql.Proofs.Totality
import ErdSql.Proofs.Trimming
import ErdSql.Proofs.Uncommenting
import ErdSql.Random
import ErdSql.Schema
import ErdSql.Schema.Edit
import ErdSql.Schema.Relationship
import ErdSql.Schema.Resolution
import ErdSql.Script.Comparison
import ErdSql.Script.Head
import ErdSql.Script.Layout
import ErdSql.Script.Word
import ErdSql.Span
import ErdSql.Sql.Name
import ErdSql.Sql.StringLiteral
import ErdSql.Text.Bytes
import ErdSql.Text.Case
import ErdSql.Text.CaseTable
import ErdSql.Text.Digit
import ErdSql.Text.Integer
import ErdSql.Text.Letter
import ErdSql.Text.Printable
import ErdSql.Text.Quoted
import ErdSql.Text.Ranges
import ErdSql.Text.Space
import ErdSql.Text.Split
import ErdSql.Text.Width
import ErdSql.Token
import ErdSql.Token.Scanner
import ErdSql.Toml
import ErdSql.Toml.Quoted
import ErdSql.Toml.Reader
import ErdSql.Toml.Spelling
import ErdSql.Toml.Tracker
import ErdSql.Uuid
import ErdSql.Word
import ErdSql.Yaml
import ErdSql.Yaml.Cursor
import ErdSql.Yaml.Kind
import ErdSql.Yaml.Reader
import ErdSql.Yaml.Scalar
import ErdSql.Yaml.Scanner
import ErdSql.Yaml.Token
