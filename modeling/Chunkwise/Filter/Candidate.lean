import Chunkwise.Chunk
import Chunkwise.Text.LowerCase

namespace Chunkwise

structure Candidate where
  path : String
  text : Text
  chunk : Option Chunk := none
  fields : Fields := []

namespace Candidate

def ofChunk (path : String) (c : Chunk) : Candidate where
  path := path
  text := c.text
  chunk := some c
  fields := c.origin.fields

def rooted (path : String) : Text :=
  match path.toList.map fun c => if c = '\\' then '/' else c with
  | '/' :: rest => '/' :: rest
  | rest => '/' :: rest

def rootedPath (c : Candidate) : Text :=
  rooted c.path

end Candidate

end Chunkwise
