import HaskellTags.CommandLine.Arguments
import HaskellTags.CommandLine.Options
import HaskellTags.CommandLine.Usage
import HaskellTags.CommandLine.Word
import HaskellTags.Decimal.Binary64
import HaskellTags.Decimal.Layout
import HaskellTags.Decimal.Limit
import HaskellTags.Decimal.Shortest
import HaskellTags.Files.Basic
import HaskellTags.Files.Discovery
import HaskellTags.Files.Error
import HaskellTags.Files.Path
import HaskellTags.Files.Writing
import HaskellTags.Journal
import HaskellTags.Json.Reader
import HaskellTags.Json.Writer
import HaskellTags.Log.Record
import HaskellTags.Log.Session
import HaskellTags.Main
import HaskellTags.Outline.Basic
import HaskellTags.Outline.OfTree
import HaskellTags.Outline.Parse
import HaskellTags.Outline.Warning
import HaskellTags.Run.Output
import HaskellTags.Run.Program
import HaskellTags.Run.Sweep
import HaskellTags.Run.Tagging
import HaskellTags.Run.World
import HaskellTags.Settings.Basic
import HaskellTags.Settings.Environment
import HaskellTags.Settings.Extension
import HaskellTags.Settings.Load
import HaskellTags.Settings.OfEntries
import HaskellTags.Tag.Basic
import HaskellTags.Tag.Letters
import HaskellTags.Tag.Line
import HaskellTags.Tag.OfOutline
import HaskellTags.TagsFile
import HaskellTags.Text.Blank
import HaskellTags.Text.Cased
import HaskellTags.Text.Digit
import HaskellTags.Text.Lines
import HaskellTags.Text.LowerCase
import HaskellTags.Text.Numeral
import HaskellTags.Text.Printable
import HaskellTags.Text.Quoted
import HaskellTags.Text.Utf8
import HaskellTags.Tree.Basic
import HaskellTags.Tree.Grammar
import HaskellTags.Tree.OfValue
import HaskellTags.Tree.Region
import HaskellTags.Tree.Search
import HaskellTags.Value.Basic
import HaskellTags.Value.Display
import HaskellTags.Value.Enumeration
import HaskellTags.Value.MemberOrder
import HaskellTags.Value.Timestamp
import HaskellTags.Yaml.Cursor
import HaskellTags.Yaml.Document
import HaskellTags.Yaml.Fault
import HaskellTags.Yaml.Graph
import HaskellTags.Yaml.Kind
import HaskellTags.Yaml.Layout
import HaskellTags.Yaml.Lexeme
import HaskellTags.Yaml.Load
import HaskellTags.Yaml.Merge
import HaskellTags.Yaml.ScalarText
import HaskellTags.Yaml.ScalarValue
import HaskellTags.Yaml.Shape
import HaskellTags.Yaml.Token
import HaskellTags.Proofs.CommandLine.Canonical
import HaskellTags.Proofs.Files.Discovery
import HaskellTags.Proofs.Files.Paths
import HaskellTags.Proofs.Files.Trees
import HaskellTags.Proofs.Files.Writing
import HaskellTags.Proofs.Journal
import HaskellTags.Proofs.Json.RoundTrip
import HaskellTags.Proofs.Json.Tokens
import HaskellTags.Proofs.Lists
import HaskellTags.Proofs.Log.History
import HaskellTags.Proofs.Log.Scopes
import HaskellTags.Proofs.Outline.Comments
import HaskellTags.Proofs.Outline.Definitions
import HaskellTags.Proofs.Outline.Infix
import HaskellTags.Proofs.Outline.Signatures
import HaskellTags.Proofs.Outline.SourceOrder
import HaskellTags.Proofs.Run.Attribution
import HaskellTags.Proofs.Run.Delivery
import HaskellTags.Proofs.Run.Discovering
import HaskellTags.Proofs.Run.Effects
import HaskellTags.Proofs.Run.FailFast
import HaskellTags.Proofs.Run.Formats
import HaskellTags.Proofs.Run.Precedence
import HaskellTags.Proofs.Run.Strictness
import HaskellTags.Proofs.Run.Sweeping
import HaskellTags.Proofs.Settings.Containment
import HaskellTags.Proofs.Settings.Extensions
import HaskellTags.Proofs.Settings.KeyByKey
import HaskellTags.Proofs.Settings.Strictness
import HaskellTags.Proofs.Tag.DistinctLetters
import HaskellTags.Proofs.Tag.Locators
import HaskellTags.Proofs.Tag.Lookups
import HaskellTags.Proofs.Tag.Shape
import HaskellTags.Proofs.Tag.Sites
import HaskellTags.Proofs.Tag.SourceOrder
import HaskellTags.Proofs.TagsFile.JsonLines
import HaskellTags.Proofs.TagsFile.Lines
import HaskellTags.Proofs.TagsFile.Order
import HaskellTags.Proofs.TagsFile.Reading
import HaskellTags.Proofs.TagsFile.Sorting
import HaskellTags.Proofs.Text.CodePoints
import HaskellTags.Proofs.Text.Decoding
import HaskellTags.Proofs.Text.Digits
import HaskellTags.Proofs.Text.Rows
import HaskellTags.Proofs.Text.Words
import HaskellTags.Proofs.Tree.Addresses
import HaskellTags.Proofs.Tree.Comments
import HaskellTags.Proofs.Tree.Errors
import HaskellTags.Proofs.Tree.Nodes
import HaskellTags.Proofs.Tree.Order
import HaskellTags.Proofs.Tree.Outermost
import HaskellTags.Proofs.Tree.Regions
