import CodeAtlas.Analysis.Call
import CodeAtlas.Analysis.CallResolution
import CodeAtlas.Analysis.Definitions
import CodeAtlas.Analysis.Error
import CodeAtlas.Analysis.Imports
import CodeAtlas.Analysis.Symbol
import CodeAtlas.Analysis.SymbolRecord
import CodeAtlas.Analysis.SymbolTable
import CodeAtlas.Chunk.Basic
import CodeAtlas.Chunk.Chunker
import CodeAtlas.Chunk.Complexity
import CodeAtlas.Chunk.Config
import CodeAtlas.Chunk.Document
import CodeAtlas.Chunk.Merge
import CodeAtlas.Chunk.Passes
import CodeAtlas.Chunk.Patterns
import CodeAtlas.Chunk.Settings
import CodeAtlas.CommandLine.Execution
import CodeAtlas.CommandLine.Request
import CodeAtlas.CommandLine.Words
import CodeAtlas.Files.Glob
import CodeAtlas.Files.Ignore
import CodeAtlas.Files.Path
import CodeAtlas.Files.Tree
import CodeAtlas.Graph.Basic
import CodeAtlas.Graph.Components
import CodeAtlas.Graph.Cycles
import CodeAtlas.Graph.Digraph
import CodeAtlas.Graph.Numbering
import CodeAtlas.Graph.PathSearch
import CodeAtlas.Json
import CodeAtlas.Json.Printer
import CodeAtlas.Json.Reader
import CodeAtlas.Main
import CodeAtlas.Parser
import CodeAtlas.Project.Analyzer
import CodeAtlas.Project.Config
import CodeAtlas.Project.Document
import CodeAtlas.Project.Error
import CodeAtlas.Project.FileAnalysis
import CodeAtlas.Project.Scan
import CodeAtlas.Project.Settings
import CodeAtlas.Project.Stats
import CodeAtlas.Proofs.Analysis.CallArguments
import CodeAtlas.Proofs.Analysis.CallOrigins
import CodeAtlas.Proofs.Analysis.CalleeNames
import CodeAtlas.Proofs.Analysis.DecoratorFlags
import CodeAtlas.Proofs.Analysis.Definitions
import CodeAtlas.Proofs.Analysis.Scopes
import CodeAtlas.Proofs.Analysis.SymbolUpdates
import CodeAtlas.Proofs.Analysis.Symbols
import CodeAtlas.Proofs.Attempt
import CodeAtlas.Proofs.Chunk.Classification
import CodeAtlas.Proofs.Chunk.Complexity
import CodeAtlas.Proofs.Chunk.Contents
import CodeAtlas.Proofs.Chunk.Hybrid
import CodeAtlas.Proofs.Chunk.Merge
import CodeAtlas.Proofs.Chunk.Passes
import CodeAtlas.Proofs.Chunk.Settings
import CodeAtlas.Proofs.Chunk.SymbolChunks
import CodeAtlas.Proofs.Chunk.Validation
import CodeAtlas.Proofs.Files.Path
import CodeAtlas.Proofs.Files.Tree
import CodeAtlas.Proofs.Graph.Agreement
import CodeAtlas.Proofs.Graph.Components
import CodeAtlas.Proofs.Graph.Digraph
import CodeAtlas.Proofs.Graph.EdgeHistory
import CodeAtlas.Proofs.Graph.LinkOrder
import CodeAtlas.Proofs.Graph.Links
import CodeAtlas.Proofs.Graph.Numbering
import CodeAtlas.Proofs.Graph.PathSearch.FeedbackArcs
import CodeAtlas.Proofs.Graph.PathSearch.Iterations
import CodeAtlas.Proofs.Graph.PathSearch.Progress
import CodeAtlas.Proofs.Graph.PathSearch.Reads
import CodeAtlas.Proofs.Graph.PathSearch.Recursion
import CodeAtlas.Proofs.Graph.PathSearch.Shape
import CodeAtlas.Proofs.Graph.Walk
import CodeAtlas.Proofs.Json.Records
import CodeAtlas.Proofs.Project.ComplexityReports
import CodeAtlas.Proofs.Project.LineTotals
import CodeAtlas.Proofs.Project.Report
import CodeAtlas.Proofs.Project.Rerun
import CodeAtlas.Proofs.Project.ResolvedCalls
import CodeAtlas.Proofs.Project.Scan
import CodeAtlas.Proofs.Project.Search
import CodeAtlas.Proofs.Project.SemanticRoutes
import CodeAtlas.Proofs.Project.Settings
import CodeAtlas.Proofs.Project.UsedSymbols
import CodeAtlas.Proofs.Project.Validation
import CodeAtlas.Proofs.Python.Comments
import CodeAtlas.Proofs.Python.Grammar.Basic
import CodeAtlas.Proofs.Python.Grammar.CompoundStatement
import CodeAtlas.Proofs.Python.Grammar.Expression
import CodeAtlas.Proofs.Python.Grammar.SimpleStatement
import CodeAtlas.Proofs.Python.KeptLandmarks
import CodeAtlas.Proofs.Python.Landmarks
import CodeAtlas.Proofs.Python.Limbs
import CodeAtlas.Proofs.Python.Literal.Integers
import CodeAtlas.Proofs.Python.Literal.Quoting
import CodeAtlas.Proofs.Python.ParameterLists
import CodeAtlas.Proofs.Python.SourceTexts
import CodeAtlas.Proofs.Store.Atomicity
import CodeAtlas.Proofs.Store.Buckets
import CodeAtlas.Proofs.Store.CallHistory
import CodeAtlas.Proofs.Store.ChunkHistory
import CodeAtlas.Proofs.Store.Deletions
import CodeAtlas.Proofs.Store.Filled
import CodeAtlas.Proofs.Store.Handles
import CodeAtlas.Proofs.Store.Index
import CodeAtlas.Proofs.Store.InducedGraph
import CodeAtlas.Proofs.Store.Lookups
import CodeAtlas.Proofs.Store.NameScan
import CodeAtlas.Proofs.Store.Ranking
import CodeAtlas.Proofs.Store.Shift
import CodeAtlas.Proofs.Store.ShiftedStores
import CodeAtlas.Proofs.Store.Sizes
import CodeAtlas.Proofs.Store.Statistics
import CodeAtlas.Proofs.Store.SymbolHistory
import CodeAtlas.Proofs.Store.SymbolIdentity
import CodeAtlas.Proofs.Store.SymbolNames
import CodeAtlas.Proofs.Store.SymbolReferences
import CodeAtlas.Proofs.Store.SymbolRows
import CodeAtlas.Proofs.Store.Undo
import CodeAtlas.Proofs.Syntax.Address
import CodeAtlas.Proofs.Syntax.Preorder
import CodeAtlas.Proofs.Table
import CodeAtlas.Proofs.Text.Case
import CodeAtlas.Proofs.Text.Docstring
import CodeAtlas.Proofs.Text.LineCounts
import CodeAtlas.Proofs.Text.LineRanges
import CodeAtlas.Proofs.Text.Lines
import CodeAtlas.Proofs.Text.Tabs
import CodeAtlas.Proofs.Text.Utf8
import CodeAtlas.Python.Concrete
import CodeAtlas.Python.Grammar.Basic
import CodeAtlas.Python.Grammar.Block
import CodeAtlas.Python.Grammar.Brackets
import CodeAtlas.Python.Grammar.CasePattern
import CodeAtlas.Python.Grammar.CompoundStatement
import CodeAtlas.Python.Grammar.Elements
import CodeAtlas.Python.Grammar.Expression
import CodeAtlas.Python.Grammar.Imports
import CodeAtlas.Python.Grammar.Parameters
import CodeAtlas.Python.Grammar.SimpleStatement
import CodeAtlas.Python.Grammar.Template
import CodeAtlas.Python.Layout
import CodeAtlas.Python.Lexer
import CodeAtlas.Python.Literal.Integer
import CodeAtlas.Python.Literal.Text
import CodeAtlas.Python.Number
import CodeAtlas.Python.Outline
import CodeAtlas.Python.Quote
import CodeAtlas.Python.Reader
import CodeAtlas.Python.Token
import CodeAtlas.Regex.Basic
import CodeAtlas.Regex.CharSet
import CodeAtlas.Regex.Property
import CodeAtlas.Regex.Reader
import CodeAtlas.Register
import CodeAtlas.Report.Analysis
import CodeAtlas.Report.Entities
import CodeAtlas.Report.Project
import CodeAtlas.Report.Statistics
import CodeAtlas.Store.Calls
import CodeAtlas.Store.Chunks
import CodeAtlas.Store.Handle
import CodeAtlas.Store.Index
import CodeAtlas.Store.Symbols
import CodeAtlas.Store.Tally
import CodeAtlas.Store.Task
import CodeAtlas.Syntax.Expr
import CodeAtlas.Syntax.Node
import CodeAtlas.Syntax.Tree
import CodeAtlas.Table
import CodeAtlas.Text.Blank
import CodeAtlas.Text.Case
import CodeAtlas.Text.Category
import CodeAtlas.Text.Category.Letters
import CodeAtlas.Text.Category.Marks
import CodeAtlas.Text.Category.Numbers
import CodeAtlas.Text.Category.Punctuation
import CodeAtlas.Text.Category.Separators
import CodeAtlas.Text.Category.Symbols
import CodeAtlas.Text.Digit
import CodeAtlas.Text.Docstring
import CodeAtlas.Text.Lines
import CodeAtlas.Text.Script
import CodeAtlas.Text.Search
import CodeAtlas.Text.Sha256
import CodeAtlas.Text.Shortest
import CodeAtlas.Text.Tabs
import CodeAtlas.Text.Utf8
import CodeAtlas.Toml.Reader
import CodeAtlas.Toml.Scalar
import CodeAtlas.Toml.Table
