import Chunkwise.Chunk

namespace Chunkwise

structure Feed where
  chunks : List Chunk
  fault : Option Fault

namespace Feed

def ofChunks (chunks : List Chunk) : Feed :=
  ⟨chunks, none⟩

def broken (fault : Fault) : Feed :=
  ⟨[], some fault⟩

def ofExcept : Except Fault (List Chunk) → Feed
  | .ok chunks => ofChunks chunks
  | .error fault => broken fault

def take (f : Feed) (n : Nat) : Feed :=
  if n ≤ f.chunks.length then ofChunks (f.chunks.take n) else f

def collect (f : Feed) : Except Fault (List Chunk) :=
  match f.fault with
  | none => .ok f.chunks
  | some fault => .error fault

end Feed

end Chunkwise
