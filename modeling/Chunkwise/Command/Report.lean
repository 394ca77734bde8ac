import Chunkwise.Chunk
import Chunkwise.Text.Blank

namespace Chunkwise

structure Report where
  files : List (String × List Chunk)

namespace Report

def empty : Report := ⟨[]⟩

def putIn (path : String) (chunks : List Chunk) :
    List (String × List Chunk) → List (String × List Chunk)
  | [] => [(path, chunks)]
  | f :: fs => if f.1 = path then (path, chunks) :: fs else f :: putIn path chunks fs

def put (r : Report) (path : String) (chunks : List Chunk) : Report :=
  ⟨putIn path chunks r.files⟩

def chunks (r : Report) : List (String × Chunk) :=
  r.files.flatMap fun (path, cs) => cs.map (path, ·)

def chunkCount (r : Report) : Nat :=
  r.files.foldr (fun f n => f.2.length + n) 0

theorem length_chunks (r : Report) : r.chunks.length = r.chunkCount := by
  rw [chunks, chunkCount]
  induction r.files with
  | nil => rfl
  | cons f fs ih => rw [List.flatMap_cons, List.length_append, List.length_map, ih, List.foldr_cons]

def plainLine (path : String) (c : Chunk) : String :=
  let name := c.name.getD ""
  String.ofList (Text.trimEnd
    s!"{path}:{c.span.first}-{c.span.last} {c.kind.label} {name}".toList)

def recordLine (path : String) (c : Chunk) : String :=
  Json.render (.object (c.fields ++ [("path", .string path)]))

def line (asJson : Bool) : String × Chunk → String
  | (path, c) => if asJson then recordLine path c else plainLine path c

def lines (asJson : Bool) (r : Report) : List String :=
  r.chunks.map (line asJson)

end Report

end Chunkwise
