import Chunkwise.Markdown.CodeBlock
import Chunkwise.Markdown.Section
import Chunkwise.Pieces
import Chunkwise.WholeText

namespace Chunkwise

namespace Markdown

def maxDocumentSize : Int := 10 * 1024 * 1024

def maxLines (o : Options) : Int :=
  o.maxLines.getD 150

def minLines (o : Options) : Int :=
  o.minLines.getD 30

def overlap (o : Options) : Int :=
  o.overlap.getD 0

def sectionChunk (ix : LineIndex) (s : Section) (isPart : Bool) (span : Span) : Chunk where
  text := ix.extract span.first span.last
  span := span
  kind := .markdownHeading
  name := s.title
  origin := .section s.level s.title isPart

def cutSection (ix : LineIndex) (maxLines minLines : Int) (s : Section) :
    Except Fault (List Chunk) :=
  if s.span.size < minLines then .ok []
  else if (ix.extract s.span.first s.span.last).allBlank then .ok []
  else (s.span.pieces maxLines).map fun pieces =>
    pieces.map (sectionChunk ix s (1 < pieces.length))

def sectionChunks (t : Text) (maxLines minLines : Int) : Except Fault (List Chunk) :=
  ((sections t).mapM (cutSection (LineIndex.ofText t) maxLines minLines)).map List.flatten

def coverChunks (t : Text) (o : Options) : Except Fault (List Chunk) := do
  let chunks ←
    if o.byHeadings.getD true && !t.allBlank then sectionChunks t (maxLines o) (minLines o)
    else pure []
  if chunks.isEmpty then LineChunks.ofText t (maxLines o) (overlap o) else return chunks

def chunk (t : Text) (o : Options) : Except Fault (List Chunk) := do
  let chunks ← coverChunks t o
  return if o.includeCodeBlocks.getD true then chunks ++ codeBlocks t else chunks

def wholeText (o : Options) : WholeText :=
  ⟨(chunk · o), maxLines o, overlap o⟩

def chunkSource (source : Source) (o : Options) (maxSize : Int) : Feed :=
  (wholeText o).chunkSource source maxSize

end Markdown

end Chunkwise
