import Chunkwise.BoundaryChunks.Context
import Chunkwise.Parser
import Chunkwise.WholeText

namespace Chunkwise

structure BoundaryChunker where
  language : String
  parsers : Parsers

namespace BoundaryChunker

def maxTextLength : Nat := 100 * 1024

def maxParsedSize : Int := 10 * 1024 * 1024

def maxLines (o : Options) : Int :=
  o.maxLines.getD 120

def minLines (o : Options) : Int :=
  o.minLines.getD 10

def overlap (o : Options) : Int :=
  o.overlap.getD 0

def boundaries (c : BoundaryChunker) (t : Text) : List Boundary :=
  match (c.parsers.get c.language).boundaries t with
  | .ok bs => bs
  | .error _ => []

def ofBoundaries (language : String) (t : Text) (bs : List Boundary) (maxLines minLines : Int)
    (preserveContext : Bool) : Except Fault (List Chunk) :=
  let setting : BoundaryChunks.Setting := ⟨LineIndex.ofText t, maxLines, minLines, language⟩
  (BoundaryChunks.sweep setting bs).map fun chunks =>
    if preserveContext then BoundaryChunks.withContext setting chunks else chunks

def chunkText (c : BoundaryChunker) (t : Text) (o : Options) : Except Fault (List Chunk) :=
  match c.boundaries t with
  | [] => LineChunks.ofText t (maxLines o) (overlap o)
  | bs => ofBoundaries c.language t bs (maxLines o) (minLines o) (o.preserveContext.getD true)

def chunk (c : BoundaryChunker) (t : Text) (path : String) (o : Options) :
    Except Fault (List Chunk) :=
  let length := t.length
  if maxTextLength < length then .error (.textTooLong path length maxTextLength)
  else c.chunkText t o

def wholeText (c : BoundaryChunker) (o : Options) : WholeText :=
  ⟨(c.chunkText · o), maxLines o, overlap o⟩

def chunkSource (c : BoundaryChunker) (source : Source) (o : Options) (maxSize : Int) : Feed :=
  (c.wholeText o).chunkSource source maxSize

end BoundaryChunker

end Chunkwise
