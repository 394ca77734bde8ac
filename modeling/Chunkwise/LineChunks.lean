import Chunkwise.Feed
import Chunkwise.Files.Content
import Chunkwise.Options
import Chunkwise.Stride
import Chunkwise.Text.Blank
import Chunkwise.Text.LineIndex
import Chunkwise.Text.Lines

namespace Chunkwise

namespace LineChunks

def windowChunk (span : Span) (text : Text) : Chunk where
  text := text
  span := span
  kind := .lineBased
  name := none
  origin := .lineWindow span.size

def cutFrom (ix : LineIndex) (s : Stride) (made : Array Chunk) (start : Nat) : Array Chunk :=
  if h : start < ix.lineCount then
    let span : Span :=
      { first := start + 1
        last := min (start + s.width) ix.lineCount
        first_le_last := by have := s.overlap_lt_width; omega }
    let text := ix.extract span.first span.last
    let made := if text.allBlank then made else made.push (windowChunk span text)
    if start + s.width < ix.lineCount then cutFrom ix s made (start + s.step) else made
  else made
termination_by ix.lineCount - start
decreasing_by
  have := s.step_pos
  omega

def cut (s : Stride) (t : Text) : List Chunk :=
  (cutFrom (LineIndex.ofText t) s #[] 0).toList

def ofText (t : Text) (maxLines overlap : Int) : Except Fault (List Chunk) :=
  (Stride.ofLines maxLines overlap).map (cut · t)

def ofWindow (w : Stride.Window Text) : Option Chunk :=
  if h : 0 < w.items.length then
    let text := Text.joinLines w.items
    if text.allBlank then none
    else some (windowChunk ⟨w.before + 1, w.before + w.items.length, by omega, by omega⟩ text)
  else none

def read (s : Stride) (t : Text) : List Chunk :=
  (s.read t.lines).filterMap ofWindow

def ofSource (source : Source) (maxLines overlap : Int) : Feed :=
  .ofExcept do
    let s ← Stride.ofLines maxLines overlap
    return read s (← source.text)

def defaultMaxLines : Int := 120

def defaultOverlap : Int := 20

def maxLines (o : Options) : Int :=
  o.maxLines.getD defaultMaxLines

def overlap (o : Options) : Int :=
  o.overlap.getD (min defaultOverlap (maxLines o - 1))

def chunk (t : Text) (o : Options) : Except Fault (List Chunk) :=
  ofText t (maxLines o) (overlap o)

def chunkSource (source : Source) (o : Options) : Feed :=
  ofSource source (maxLines o) (overlap o)

end LineChunks

end Chunkwise
