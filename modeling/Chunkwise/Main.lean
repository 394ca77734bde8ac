import Chunkwise.Command.Run
import Chunkwise.Command.Usage

namespace Chunkwise

def FileTree.append (tree other : FileTree) : FileTree where
  entries := tree.entries ++ other.entries
  unlisted := tree.unlisted ++ other.unlisted
  unsearched := tree.unsearched ++ other.unsearched

partial def load (place : Place) : IO FileTree := do
  let path := (← IO.currentDir) / place.path
  if ← path.isDir then
    let some below ← try some <$> path.readDir catch _ => pure none
      | return { entries := [(place, .folder)], unlisted := [place] }
    let mut tree : FileTree := { entries := [(place, .folder)] }
    for e in below do
      let next := place ++ [e.fileName]
      match ← try some <$> e.path.symlinkMetadata catch _ => pure none with
      | none => tree := tree.append { entries := [(next, .unreadable)], unsearched := [place] }
      | some data =>
          if data.type == .symlink && (← e.path.isDir) then
            tree := tree.append { entries := [(next, .folder)] }
          else tree := tree.append (← load next)
    return tree
  else if ← path.pathExists then
    let content ← try Content.bytes <$> IO.FS.readBinFile path catch _ => pure .unreadable
    return { entries := [(place, content)] }
  else
    return { entries := [] }

def Outcome.print (o : Outcome) : IO UInt32 := do
  IO.print (String.ofList o.text)
  for m in o.log do
    IO.eprintln s!"{m.level.label} - {m.text}"
  return o.exitCode.toUInt32

end Chunkwise

open Chunkwise in
def main (arguments : List String) : IO UInt32 := do
  match Request.ofArguments arguments with
  | .error stop =>
      if stop = .helpWanted then IO.println stop.message else IO.eprintln stop.message
      return stop.exitCode.toUInt32
  | .ok request =>
      let current := (Path.ofString (← IO.currentDir).toString).names
      let trees ← (request.paths.map (Place.ofPath current)).mapM load
      let tree := trees.foldl FileTree.append { entries := [] }
      (request.run tree current Parsers.none).print
