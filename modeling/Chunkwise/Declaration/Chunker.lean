import Chunkwise.Declaration.Basic
import Chunkwise.LineChunks
import Chunkwise.Pieces
import Chunkwise.SlidingWindow

namespace Chunkwise

structure DeclarationChunker where
  windowSize : Int
  windowOverlap : Int

namespace DeclarationChunker

def new (windowSize windowOverlap : Int) : Except Fault DeclarationChunker :=
  if windowSize ≤ windowOverlap then .error (.overlapNotBelowWindow windowOverlap windowSize)
  else .ok ⟨windowSize, windowOverlap⟩

def standard : DeclarationChunker :=
  ⟨SlidingWindow.defaultSize, SlidingWindow.defaultOverlap⟩

def maxLines (o : Options) : Int :=
  o.maxLines.getD 200

def minLines (o : Options) : Int :=
  o.minLines.getD 20

def chunkOf (reach : Reach) (d : Declaration) : Chunk where
  text := d.text
  span := d.span
  kind := d.form.kind
  name := some d.name
  origin := .declaration reach d.form none

def pieceOf (ix : LineIndex) (reach : Reach) (d : Declaration) (piece : Span) : Chunk where
  text := Declaration.capped (ix.lineEnd piece.last - ix.offsetOf piece.first)
    (ix.restFrom piece.first)
  span := piece
  kind := d.form.kind
  name := some d.name
  origin := .declaration reach d.form (some d.span)

def cutDeclaration (ix : LineIndex) (reach : Reach) (maxLines minLines : Int) (d : Declaration) :
    Except Fault (List Chunk) :=
  if maxLines < d.span.size then
    (d.span.pieces maxLines).map fun pieces => pieces.map (pieceOf ix reach d)
  else if minLines ≤ d.span.size then .ok [chunkOf reach d]
  else .ok []

def declarationChunks (reach : Reach) (maxLines minLines : Int) (t : Text) :
    Except Fault (List Chunk) :=
  ((Declaration.allOf t).mapM
    (cutDeclaration (LineIndex.ofText t) reach maxLines minLines)).map List.flatten

def chunk (t : Text) (o : Options) : Except Fault (List Chunk) :=
  match declarationChunks .wholeText (maxLines o) (minLines o) t with
  | .ok (c :: cs) => .ok (c :: cs)
  | _ => LineChunks.ofText t (maxLines o) (o.overlap.getD 0)

def chunkSource (c : DeclarationChunker) (source : Source) (o : Options) : Feed :=
  SlidingWindow.ofSource source
    (fun _ w => (declarationChunks .window (maxLines o) (minLines o) w).map .ofChunks)
    c.windowSize c.windowOverlap

end DeclarationChunker

end Chunkwise
