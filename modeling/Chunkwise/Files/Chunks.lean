import Chunkwise.Chunkers
import Chunkwise.Files.Tree

namespace Chunkwise

namespace FileTree

def chunkFile (tree : FileTree) (current : Place) (parsers : Parsers) (o : Options) (path : String) :
    Except Fault Feed := do
  let content ← tree.read current path
  return (Strategy.select path content.size).feed parsers (.ok content) o

def passedOver : List String := [
  "__pycache__", ".git", ".hg", ".svn",
  ".venv", "venv", "env", ".env", ".direnv",
  "node_modules", ".pnpm-store", ".yarn",
  ".pytest_cache", ".mypy_cache", ".ruff_cache", ".pytype", ".ipynb_checkpoints",
  "build", "dist", "out",
  ".next", ".nuxt", ".svelte-kit", ".angular", ".vite",
  ".cache", ".parcel-cache", ".turbo",
  "coverage", ".coverage", ".nyc_output",
  ".gradle", ".idea", ".vscode", ".tox",
  "target", "bin", "obj"]

def endings (extensions : List String) : List String :=
  if extensions.isEmpty then Strategy.supportedExtensions else extensions

def isWanted (extensions names : List String) : Bool :=
  extensions.contains (lowerCase (Path.suffix ⟨"", names⟩)) && !names.any passedOver.contains

def isTaken (tree : FileTree) (current : Place) (extensions : List String) (folder : Path)
    (names : Place) : Except Fault Bool :=
  (tree.find current (folder.append names).toString).map fun found =>
    found.any (!·.2.isFolder) && isWanted extensions names

end FileTree

namespace Chunkers

def chunkFile (k : Chunkers) (tree : FileTree) (current : Place) (o : Options) (path : String) :
    Except Fault (List Chunk) × Chunkers :=
  match tree.read current path with
  | .error fault => (.error fault, k)
  | .ok content =>
      let (feed, k) := k.feed (.ok content) o (Strategy.select path content.size)
      (feed.collect, k)

def chunkEach (k : Chunkers) (tree : FileTree) (current : Place) (o : Options)
    (extensions : List String) (folder : Path) (done : Array (String × List Chunk)) :
    List Place → Except Fault (Array (String × List Chunk) × Chunkers)
  | [] => .ok (done, k)
  | names :: rest =>
      match tree.isTaken current extensions folder names with
      | .error fault => .error fault
      | .ok false => k.chunkEach tree current o extensions folder done rest
      | .ok true =>
          let path := (folder.append names).toString
          match k.chunkFile tree current o path with
          | (.ok chunks, k) =>
              k.chunkEach tree current o extensions folder (done.push (path, chunks)) rest
          | (.error (.file _), k) => k.chunkEach tree current o extensions folder done rest
          | (.error fault, _) => .error fault

def chunkFolder (k : Chunkers) (tree : FileTree) (current : Place) (o : Options)
    (extensions : List String) (path : String) :
    Except Fault (List (String × List Chunk) × Chunkers) :=
  let folder := Path.ofString path
  match tree.find current folder.toString with
  | .error fault => .error fault
  | .ok (some (place, .folder)) =>
      match tree.listing folder place with
      | .error fault => .error fault
      | .ok names =>
          (k.chunkEach tree current o (FileTree.endings extensions) folder #[] names).map
            fun (files, k) => (files.toList, k)
  | .ok _ => .ok ([], k)

end Chunkers

def FileTree.chunkFolder (tree : FileTree) (current : Place) (parsers : Parsers) (o : Options)
    (extensions : List String) (path : String) : Except Fault (List (String × List Chunk)) :=
  ((Chunkers.new parsers).chunkFolder tree current o extensions path).map (·.1)

end Chunkwise
