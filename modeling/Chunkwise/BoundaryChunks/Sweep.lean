import Chunkwise.Boundary
import Chunkwise.Chunk
import Chunkwise.Pieces
import Chunkwise.Text.LineIndex

namespace Chunkwise

namespace BoundaryChunks

structure Setting where
  index : LineIndex
  maxLines : Int
  minLines : Int
  language : String

structure Group where
  span : Span
  primary : Boundary
  others : List Boundary := []

namespace Group

def members (g : Group) : List Boundary :=
  g.primary :: g.others.reverse

def add (g : Group) (b : Boundary) (last : Nat) : Group where
  span := g.span.extendTo last
  primary := g.primary
  others := b :: g.others

def chunk (c : Setting) (g : Group) : Chunk where
  text := c.index.extract g.span.first g.span.last
  span := g.span
  kind := g.primary.kind
  name := g.primary.name
  origin := .merged (g.others.length + 1) (g.members.map (·.kind)).eraseDups c.language

end Group

structure Sweep where
  emitted : Nat := 0
  group : Option Group := none
  chunks : Array Chunk := #[]

def visible (b : Boundary) (lineCount below : Nat) : Option Span :=
  let first := max (max b.first 1).toNat (below + 1)
  let last := (min b.last lineCount).toNat
  if h : first ≤ last then some ⟨first, last, by omega, h⟩ else none

def cutBoundary (c : Setting) (b : Boundary) (span : Span) : Except Fault (List Chunk) :=
  (span.pieces c.maxLines).map fun pieces =>
    (pieces.zipIdx 1).map fun (piece, number) =>
      { text := c.index.extract piece.first piece.last
        span := piece
        kind := b.kind
        name := b.name
        origin := .part b.first b.last number pieces.length c.language }

namespace Sweep

def covered (s : Sweep) : Nat :=
  max s.emitted (s.group.elim 0 (·.span.last))

def closed (c : Setting) (s : Sweep) : Array Chunk :=
  match s.group with
  | none => s.chunks
  | some g => if c.minLines ≤ g.span.size then s.chunks.push (g.chunk c) else s.chunks

def place (c : Setting) (s : Sweep) (b : Boundary) (span : Span) : Except Fault Sweep :=
  if c.maxLines < span.size then
    (cutBoundary c b span).map fun (parts : List Chunk) =>
      ⟨span.last, none, s.closed c ++ parts⟩
  else match s.group with
    | none => .ok { s with group := some ⟨span, b, []⟩ }
    | some g =>
        if c.maxLines < (span.last : Int) - g.span.first + 1 && c.minLines ≤ g.span.size then
          .ok ⟨g.span.last, some ⟨span, b, []⟩, s.chunks.push (g.chunk c)⟩
        else .ok { s with group := some (g.add b span.last) }

def step (c : Setting) (s : Sweep) (b : Boundary) : Except Fault Sweep :=
  match visible b c.index.lineCount s.covered with
  | none => .ok s
  | some span => s.place c b span

def finish (c : Setting) (s : Sweep) : List Chunk :=
  (s.closed c).toList

end Sweep

def precedes (a b : Boundary) : Bool :=
  a.first < b.first || (a.first == b.first && b.last ≤ a.last)

def sweep (c : Setting) (bs : List Boundary) : Except Fault (List Chunk) :=
  ((bs.mergeSort precedes).foldlM (Sweep.step c) {}).map (Sweep.finish c)

end BoundaryChunks

end Chunkwise
