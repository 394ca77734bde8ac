import Chunkwise.BoundaryChunks.Sweep

namespace Chunkwise

namespace BoundaryChunks

variable (c : Setting)

def growUp (chunk : Chunk) : Chunk :=
  if chunk.span.first ≤ 1 || chunk.origin.isPart || c.maxLines < chunk.span.last then chunk
  else
    let span : Span :=
      { first := 1
        last := chunk.span.last
        first_le_last := by
          have := chunk.span.one_le_first
          have := chunk.span.first_le_last
          omega }
    chunk.respan span (c.index.extract span.first span.last)

def growDown (chunk : Chunk) : Chunk :=
  if h : chunk.span.last < c.index.lineCount then
    if chunk.origin.isPart ||
        c.maxLines < (c.index.lineCount : Int) - chunk.span.first + 1 then chunk
    else
      let span : Span :=
        { first := chunk.span.first
          last := c.index.lineCount
          one_le_first := chunk.span.one_le_first
          first_le_last := by have := chunk.span.first_le_last; omega }
      chunk.respan span (c.index.extract span.first span.last)
  else chunk

def changeFirst (f : Chunk → Chunk) : List Chunk → List Chunk
  | [] => []
  | x :: xs => f x :: xs

def changeLast (f : Chunk → Chunk) (xs : List Chunk) : List Chunk :=
  (changeFirst f xs.reverse).reverse

def withContext (chunks : List Chunk) : List Chunk :=
  changeLast (growDown c) (changeFirst (growUp c) chunks)

end BoundaryChunks

end Chunkwise
