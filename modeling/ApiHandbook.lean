import ApiHandbook.Command.Arguments
import ApiHandbook.Command.Options
import ApiHandbook.Command.Run
import ApiHandbook.Command.Standard
import ApiHandbook.Extraction.Basic
import ApiHandbook.Extraction.Endpoints
import ApiHandbook.Extraction.Objects
import ApiHandbook.Extraction.OneOfs
import ApiHandbook.Extraction.Run
import ApiHandbook.Extraction.Symbols
import ApiHandbook.Files.Path
import ApiHandbook.Files.Tree
import ApiHandbook.Handbook.Document
import ApiHandbook.Handbook.Page
import ApiHandbook.Handbook.Related
import ApiHandbook.Main
import ApiHandbook.Proofs.Command.Outcomes
import ApiHandbook.Proofs.Except
import ApiHandbook.Proofs.Extraction.Agreement
import ApiHandbook.Proofs.Extraction.Basic
import ApiHandbook.Proofs.Extraction.Coverage
import ApiHandbook.Proofs.Extraction.Endpoints
import ApiHandbook.Proofs.Extraction.Images
import ApiHandbook.Proofs.Extraction.Names
import ApiHandbook.Proofs.Extraction.Nesting
import ApiHandbook.Proofs.Extraction.Objects
import ApiHandbook.Proofs.Extraction.OneOfs
import ApiHandbook.Proofs.Extraction.Order
import ApiHandbook.Proofs.Extraction.Passes
import ApiHandbook.Proofs.Extraction.Payloads
import ApiHandbook.Proofs.Extraction.Records
import ApiHandbook.Proofs.Extraction.References
import ApiHandbook.Proofs.Extraction.Reports
import ApiHandbook.Proofs.Extraction.Rollback
import ApiHandbook.Proofs.Extraction.Scoping
import ApiHandbook.Proofs.Extraction.Wrappers
import ApiHandbook.Proofs.Files.Saving
import ApiHandbook.Proofs.Handbook.Anchors
import ApiHandbook.Proofs.Handbook.Closure
import ApiHandbook.Proofs.Handbook.Dependence
import ApiHandbook.Proofs.Handbook.Fragments
import ApiHandbook.Proofs.Handbook.Links
import ApiHandbook.Proofs.Handbook.Related
import ApiHandbook.Proofs.Handbook.Rendering
import ApiHandbook.Proofs.Handbook.Rows
import ApiHandbook.Proofs.Registry.Growth
import ApiHandbook.Proofs.Registry.Matching
import ApiHandbook.Proofs.Registry.References
import ApiHandbook.Proofs.Registry.Resolution
import ApiHandbook.Proofs.Registry.ScopeChains
import ApiHandbook.Proofs.Registry.Scopes
import ApiHandbook.Proofs.Registry.Tables
import ApiHandbook.Proofs.Registry.Wrappers
import ApiHandbook.Proofs.Settings.Loading
import ApiHandbook.Proofs.Source.Comments
import ApiHandbook.Proofs.Source.DeclaredNames
import ApiHandbook.Proofs.Source.GapComments
import ApiHandbook.Proofs.Source.Gaps
import ApiHandbook.Proofs.Source.Layout
import ApiHandbook.Proofs.Source.Lexemes
import ApiHandbook.Proofs.Source.Lines
import ApiHandbook.Proofs.Source.Literals
import ApiHandbook.Proofs.Source.Loops
import ApiHandbook.Proofs.Source.Occurrences
import ApiHandbook.Proofs.Source.Paths
import ApiHandbook.Proofs.Source.PrintedReading
import ApiHandbook.Proofs.Source.PrintedTokens
import ApiHandbook.Proofs.Source.Printing
import ApiHandbook.Proofs.Source.ReaderLoops
import ApiHandbook.Proofs.Source.Respacing
import ApiHandbook.Proofs.Source.RoundTrip
import ApiHandbook.Proofs.Source.SkippedMembers
import ApiHandbook.Proofs.Source.Spelling
import ApiHandbook.Proofs.Source.Templates
import ApiHandbook.Proofs.Source.TypeForms
import ApiHandbook.Proofs.Source.TypeReading
import ApiHandbook.Proofs.Source.TypesInContext
import ApiHandbook.Proofs.Source.Words
import ApiHandbook.Proofs.Text.CharSets
import ApiHandbook.Proofs.Text.ControlSequence
import ApiHandbook.Proofs.Text.LowerCase
import ApiHandbook.Proofs.Text.SnakeCase
import ApiHandbook.Proofs.Text.Utf8
import ApiHandbook.Registry.Basic
import ApiHandbook.Registry.Resolve
import ApiHandbook.Schema.Error
import ApiHandbook.Schema.Object
import ApiHandbook.Schema.ValueType
import ApiHandbook.Settings.Basic
import ApiHandbook.Settings.File
import ApiHandbook.Settings.Validation
import ApiHandbook.Source.Declaration
import ApiHandbook.Source.File
import ApiHandbook.Source.Piece
import ApiHandbook.Source.Reading.Basic
import ApiHandbook.Source.Reading.Initializer
import ApiHandbook.Source.Reading.Member
import ApiHandbook.Source.Reading.Shape
import ApiHandbook.Source.StringLiteral
import ApiHandbook.Source.SyntaxError
import ApiHandbook.Source.Token
import ApiHandbook.Text.Base64
import ApiHandbook.Text.Blank
import ApiHandbook.Text.CharSet
import ApiHandbook.Text.CodePoint
import ApiHandbook.Text.ControlSequence
import ApiHandbook.Text.LowerCase
import ApiHandbook.Text.NameChar
import ApiHandbook.Text.Quoted
import ApiHandbook.Text.SnakeCase
import ApiHandbook.Text.Split
import ApiHandbook.Text.Utf8
import ApiHandbook.Yaml.Cursor
import ApiHandbook.Yaml.Document
import ApiHandbook.Yaml.Error
import ApiHandbook.Yaml.Kind
import ApiHandbook.Yaml.Meaning
import ApiHandbook.Yaml.Merge
import ApiHandbook.Yaml.Node
import ApiHandbook.Yaml.Number
import ApiHandbook.Yaml.Reading
import ApiHandbook.Yaml.Scalar
import ApiHandbook.Yaml.Tag
import ApiHandbook.Yaml.Timestamp
import ApiHandbook.Yaml.Token
import ApiHandbook.Yaml.Value
