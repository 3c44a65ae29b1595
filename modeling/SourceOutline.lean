import SourceOutline.Calendar
import SourceOutline.Capture
import SourceOutline.Command.Arguments
import SourceOutline.Command.Expand
import SourceOutline.Command.Run
import SourceOutline.Disk
import SourceOutline.Error
import SourceOutline.Extraction.Batch
import SourceOutline.Extraction.Extractor
import SourceOutline.Extraction.File
import SourceOutline.Extraction.Pool
import SourceOutline.Fault
import SourceOutline.Grammar.Callers
import SourceOutline.Grammar.Registry
import SourceOutline.Grammar.SingleFlight
import SourceOutline.Json.Reader
import SourceOutline.Json.Writer
import SourceOutline.Language.DefinitionQuery
import SourceOutline.Language.Library
import SourceOutline.Language.Table
import SourceOutline.Log.Event
import SourceOutline.Log.Sink
import SourceOutline.Main
import SourceOutline.Markdown.Heading
import SourceOutline.Markdown.Section
import SourceOutline.Number.Binary64
import SourceOutline.Number.Shortest
import SourceOutline.Outline.Definition
import SourceOutline.Outline.Format
import SourceOutline.Outline.InlineMarkup
import SourceOutline.Outline.Synthesis
import SourceOutline.Path
import SourceOutline.Query.Compile
import SourceOutline.Query.Match
import SourceOutline.Query.Pattern
import SourceOutline.Query.Reader
import SourceOutline.Query.Trial
import SourceOutline.Query.Vocabulary
import SourceOutline.Session
import SourceOutline.Settings.Check
import SourceOutline.Settings.Environment
import SourceOutline.Settings.Load
import SourceOutline.Settings.Model
import SourceOutline.Settings.Override
import SourceOutline.SyntaxTree
import SourceOutline.Text.Blank
import SourceOutline.Text.Case
import SourceOutline.Text.CaseTable
import SourceOutline.Text.DigitTable
import SourceOutline.Text.Digits
import SourceOutline.Text.IllFormed
import SourceOutline.Text.LetterTable
import SourceOutline.Text.Lines
import SourceOutline.Text.PrintableTable
import SourceOutline.Text.Quoted
import SourceOutline.Text.Similarity
import SourceOutline.Text.Surrogate
import SourceOutline.Text.Utf8
import SourceOutline.Value
import SourceOutline.Value.Display
import SourceOutline.Yaml.Cursor
import SourceOutline.Yaml.Document
import SourceOutline.Yaml.Graph
import SourceOutline.Yaml.Layout
import SourceOutline.Yaml.Scalar
import SourceOutline.Yaml.Tag
import SourceOutline.Yaml.Token
import SourceOutline.Proofs.Grammar.Ledger
import SourceOutline.Proofs.Grammar.InTurn
import SourceOutline.Proofs.Grammar.Exclusion
import SourceOutline.Proofs.Grammar.Linearization
import SourceOutline.Proofs.Markdown.Headings
import SourceOutline.Proofs.Markdown.Outline
import SourceOutline.Proofs.Extraction.File
import SourceOutline.Proofs.Extraction.FirstFailure
import SourceOutline.Proofs.Extraction.Agreement
import SourceOutline.Proofs.Outline.Spans
import SourceOutline.Proofs.Text.DecodedLines
import SourceOutline.Proofs.Text.Lines
import SourceOutline.Proofs.Grammar.Attempts
import SourceOutline.Proofs.Grammar.History
import SourceOutline.Proofs.Extraction.Targets
import SourceOutline.Proofs.Extraction.Sequence
import SourceOutline.Proofs.Query.Matching
import SourceOutline.Proofs.Query.Search
import SourceOutline.Proofs.Language.Declarations
import SourceOutline.Proofs.Extraction.Veto
import SourceOutline.Proofs.Outline.FileBounds
import SourceOutline.Proofs.Language.Signatures
import SourceOutline.Proofs.Settings.Merge
import SourceOutline.Proofs.Settings.KeyPaths
import SourceOutline.Proofs.Yaml.Keys
import SourceOutline.Proofs.Settings.Variables
import SourceOutline.Proofs.Settings.Leaves
import SourceOutline.Proofs.Settings.Precedence
import SourceOutline.Proofs.Grammar.Progress
import SourceOutline.Proofs.Grammar.Requests
import SourceOutline.Proofs.Path
import SourceOutline.Proofs.Extraction.Journal
import SourceOutline.Proofs.Outline.ReadBack
import SourceOutline.Proofs.Query.Concatenation
import SourceOutline.Proofs.Outline.Records
import SourceOutline.Proofs.Language.Dialects
import SourceOutline.Proofs.Outline.Survivors
import SourceOutline.Proofs.Outline.Threshold
import SourceOutline.Proofs.Markdown.LineShapes
import SourceOutline.Proofs.Markdown.Visibility
import SourceOutline.Proofs.Markdown.Rules
import SourceOutline.Proofs.Markdown.Nesting
import SourceOutline.Proofs.Markdown.Hidden
import SourceOutline.Proofs.Markdown.LineEnds
import SourceOutline.Proofs.Settings.Endings
import SourceOutline.Proofs.Settings.Failures
import SourceOutline.Proofs.Command.Expansion
import SourceOutline.Proofs.Command.Listing
import SourceOutline.Proofs.Outline.Refusals
import SourceOutline.Proofs.ErrorCount
import SourceOutline.Proofs.Language.Resolution
import SourceOutline.Proofs.Command.Entries
