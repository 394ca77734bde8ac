import Chunkwise.Binary64
import Chunkwise.Boundary
import Chunkwise.BoundaryChunks.Chunker
import Chunkwise.BoundaryChunks.Context
import Chunkwise.BoundaryChunks.Sweep
import Chunkwise.Braces.Boundaries
import Chunkwise.Braces.Header
import Chunkwise.Braces.Outline
import Chunkwise.Chunk
import Chunkwise.Chunkers
import Chunkwise.Command.Report
import Chunkwise.Command.Request
import Chunkwise.Command.Run
import Chunkwise.Command.Switch
import Chunkwise.Command.Usage
import Chunkwise.Command.Word
import Chunkwise.Declaration.Basic
import Chunkwise.Declaration.Chunker
import Chunkwise.Declaration.Extent
import Chunkwise.Fault
import Chunkwise.Feed
import Chunkwise.Files.Chunks
import Chunkwise.Files.Content
import Chunkwise.Files.Path
import Chunkwise.Files.Tree
import Chunkwise.Filter.Basic
import Chunkwise.Filter.Candidate
import Chunkwise.Filter.Gate
import Chunkwise.Filter.Glob
import Chunkwise.Filter.Marks
import Chunkwise.Filter.Quality
import Chunkwise.Kind
import Chunkwise.Language.Keywords
import Chunkwise.Language.Name
import Chunkwise.Language.Profile
import Chunkwise.Language.Registry
import Chunkwise.LineChunks
import Chunkwise.WholeText
import Chunkwise.Main
import Chunkwise.Markdown.Chunker
import Chunkwise.Markdown.CodeBlock
import Chunkwise.Markdown.Line
import Chunkwise.Markdown.Section
import Chunkwise.Options
import Chunkwise.Outline
import Chunkwise.Parser
import Chunkwise.Pattern.Basic
import Chunkwise.Pattern.Written
import Chunkwise.Pieces
import Chunkwise.SlidingWindow
import Chunkwise.Span
import Chunkwise.Strategy
import Chunkwise.Stride
import Chunkwise.Text.Basic
import Chunkwise.Text.Blank
import Chunkwise.Text.CaseContext
import Chunkwise.Text.Digit
import Chunkwise.Text.Integer
import Chunkwise.Text.LineIndex
import Chunkwise.Text.Lines
import Chunkwise.Text.LowerCase
import Chunkwise.Text.LowerCaseRuns
import Chunkwise.Text.Newlines
import Chunkwise.Text.Ranges
import Chunkwise.Text.Utf8
import Chunkwise.Text.Word
import Chunkwise.Tree.Boundaries
import Chunkwise.Tree.Definition
import Chunkwise.Tree.Grammar
import Chunkwise.Tree.Node
import Chunkwise.Tree.Outline
import Chunkwise.Value
import Chunkwise.Proofs.Text.LineIndex
import Chunkwise.Proofs.Text.Addressing
import Chunkwise.Proofs.Text.LowerCase
import Chunkwise.Proofs.LineChunks
import Chunkwise.Proofs.Options
import Chunkwise.Proofs.WholeText
import Chunkwise.Proofs.Loops
import Chunkwise.Proofs.Pieces
import Chunkwise.Proofs.BoundaryChunks.Move
import Chunkwise.Proofs.BoundaryChunks.Order
import Chunkwise.Proofs.BoundaryChunks.Whole
import Chunkwise.Proofs.BoundaryChunks.Chunker
import Chunkwise.Proofs.BoundaryChunks.Widening
import Chunkwise.Proofs.Excerpt
import Chunkwise.Proofs.Declaration
import Chunkwise.Proofs.Markdown
import Chunkwise.Proofs.SlidingWindow
import Chunkwise.Proofs.Files.Chunks
import Chunkwise.Proofs.BoundaryChunks.Empty
import Chunkwise.Proofs.Files.Visible
import Chunkwise.Proofs.BoundaryChunks.Lost
import Chunkwise.Proofs.BoundaryChunks.LossBound
import Chunkwise.Proofs.Files.Streams
import Chunkwise.Proofs.SlidingSlices
import Chunkwise.Proofs.WidthCheck
import Chunkwise.Proofs.Markdown.Cover
import Chunkwise.Proofs.Braces.Boundaries
import Chunkwise.Proofs.Braces.Outline
import Chunkwise.Proofs.Tree.Visit
import Chunkwise.Proofs.Tree.Boundaries
import Chunkwise.Proofs.Tree.Definitions
import Chunkwise.Proofs.Tree.Loading
import Chunkwise.Proofs.Assoc
import Chunkwise.Proofs.Language.Registry
import Chunkwise.Proofs.Language.Name
import Chunkwise.Proofs.Filter.Breakdown
import Chunkwise.Proofs.Filter.Easing
import Chunkwise.Proofs.Pattern.Search
import Chunkwise.Proofs.Filter.Glob
import Chunkwise.Proofs.Files.Path
import Chunkwise.Proofs.Files.Tree
import Chunkwise.Proofs.Strategy
import Chunkwise.Proofs.Chunkers
import Chunkwise.Proofs.Files.Folder
import Chunkwise.Proofs.Command.Report
import Chunkwise.Proofs.Command.Run
import Chunkwise.Proofs.BoundaryChunks.Budget
import Chunkwise.Proofs.BoundaryChunks.Outermost
import Chunkwise.Proofs.Binary64
import Chunkwise.Proofs.Cutting
import Chunkwise.Proofs.LineGrid
import Chunkwise.Proofs.Declaration.Sweep
import Chunkwise.Proofs.Declaration.Header
import Chunkwise.Proofs.Declaration.Closing
import Chunkwise.Proofs.Declaration.Chunks
import Chunkwise.Proofs.Declaration.Stream
import Chunkwise.Proofs.Markdown.CodeBlocks
import Chunkwise.Proofs.Braces.Append
