import TagLayers.Color.Basic
import TagLayers.Color.Map
import TagLayers.CommandLine.Arguments
import TagLayers.CommandLine.Run
import TagLayers.Config.Basic
import TagLayers.Config.Reading
import TagLayers.Diagnostic.Basic
import TagLayers.Diagnostic.Rendering
import TagLayers.Diagnostic.Sink
import TagLayers.Grouping.Grouper
import TagLayers.Grouping.Match
import TagLayers.Layer.Perspective
import TagLayers.Layer.TaggedText
import TagLayers.Layer.Token
import TagLayers.Lexicon.Basic
import TagLayers.Lexicon.Finder
import TagLayers.Lexicon.Marks
import TagLayers.Lexicon.Piece
import TagLayers.Lexicon.Tokenizer
import TagLayers.Main
import TagLayers.NameTable
import TagLayers.Pattern.Automaton
import TagLayers.Pattern.Basic
import TagLayers.Pattern.Cursor
import TagLayers.Proofs.Layer.Coverage
import TagLayers.Proofs.Sorting
import TagLayers.Proofs.Success
import TagLayers.Regex.Basic
import TagLayers.Regex.Bracket
import TagLayers.Regex.ByteSequence
import TagLayers.Regex.Ledger
import TagLayers.Regex.Program
import TagLayers.Regex.Reader
import TagLayers.Regex.Search
import TagLayers.Regex.Size
import TagLayers.Regex.Symbol
import TagLayers.Report.Json
import TagLayers.Report.MatchRecord
import TagLayers.Report.Quoted
import TagLayers.Report.TokenRecord
import TagLayers.Source.Basic
import TagLayers.Source.File
import TagLayers.Source.Span
import TagLayers.Tag.Basic
import TagLayers.Tag.Pairs
import TagLayers.Text
import TagLayers.Toml.Document
import TagLayers.Toml.Node
import TagLayers.Toml.Scalar
import TagLayers.Toml.Spacing
import TagLayers.Toml.Strings
import TagLayers.Toml.Value
import TagLayers.Unicode.Alphabetic
import TagLayers.Unicode.Classes
import TagLayers.Unicode.Folding
import TagLayers.Unicode.Marks
import TagLayers.Unicode.Numbers
import TagLayers.Unicode.Ranges
import TagLayers.Unicode.Recent
import TagLayers.Unicode.Unprintable
import TagLayers.Verilog.Lexicon
import TagLayers.Verilog.Parser
import TagLayers.Verilog.Structures
import TagLayers.Proofs.Layer.Bisection
import TagLayers.Proofs.Layer.LastWriter
import TagLayers.Proofs.Pattern.Matcher
import TagLayers.Proofs.Pattern.Steps
import TagLayers.Proofs.Pattern.Simulation
import TagLayers.Proofs.Pattern.EndOfStream
import TagLayers.Proofs.Grouping.Scans
import TagLayers.Proofs.Pattern.Calls
import TagLayers.Proofs.Pattern.Spelling
import TagLayers.Proofs.Layer.Texts
import TagLayers.Proofs.Grouping.Projection
import TagLayers.Proofs.Grouping.Totality
import TagLayers.Proofs.Lexicon.Tokenization
import TagLayers.Proofs.Verilog.Parsing
import TagLayers.Proofs.Pattern.Regions
import TagLayers.Proofs.Grouping.Failures
import TagLayers.Proofs.Grouping.History
import TagLayers.Proofs.Verilog.History
import TagLayers.Proofs.Lexicon.Layouts
import TagLayers.Proofs.Lexicon.OneMachine
import TagLayers.Proofs.Lexicon.TwoPasses
import TagLayers.Proofs.Layer.Edits
import TagLayers.Proofs.Lexicon.Segments
import TagLayers.Proofs.Lexicon.Layering
import TagLayers.Proofs.Lexicon.OpenStrings
import TagLayers.Proofs.Lexicon.Scanners
import TagLayers.Proofs.Lexicon.Walks
import TagLayers.Proofs.Layer.Runs
import TagLayers.Proofs.Grouping.Coarsening
import TagLayers.Proofs.Verilog.Passes
import TagLayers.Proofs.Verilog.Coarsening
import TagLayers.Proofs.Grouping.Losses
import TagLayers.Proofs.Pattern.Offers
import TagLayers.Proofs.Pattern.Openers
import TagLayers.Proofs.Grouping.Reports
import TagLayers.Proofs.Verilog.Boundaries
import TagLayers.Proofs.Diagnostic.Sorting
import TagLayers.Proofs.Grouping.Orders
import TagLayers.Proofs.Verilog.Orders
import TagLayers.Proofs.Layer.Overwriting
import TagLayers.Proofs.Pattern.Reoffers
import TagLayers.Proofs.Grouping.Validation
import TagLayers.Proofs.Pattern.Traversal
import TagLayers.Proofs.Lexicon.Places
import TagLayers.Proofs.Lexicon.Symbols
import TagLayers.Proofs.Lexicon.Words
import TagLayers.Proofs.Lexicon.Keywords
import TagLayers.Proofs.Config.Escapes
import TagLayers.Proofs.Lexicon.Pairs
import TagLayers.Proofs.Source.Lines
import TagLayers.Proofs.Color.Codes
import TagLayers.Proofs.Diagnostic.Underlines
import TagLayers.Proofs.Source.Locations
import TagLayers.Proofs.Report.Listing
import TagLayers.Proofs.Text.Fields
import TagLayers.Proofs.Tag.Display
import TagLayers.Proofs.Tag.Meaning
import TagLayers.Proofs.Report.TokenLines
import TagLayers.Proofs.Pattern.Guarding
import TagLayers.Proofs.Source.Spans
import TagLayers.Proofs.Pattern.Rounds
