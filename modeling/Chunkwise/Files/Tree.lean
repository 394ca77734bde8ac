import Chunkwise.Files.Content
import Chunkwise.Files.Path

namespace Chunkwise

abbrev Place := List String

structure FileTree where
  entries : List (Place × Content)
  /-- Folders that give no list of what is in them. -/
  unlisted : List Place := []
  /-- Folders in which no name can be looked up. -/
  unsearched : List Place := []

namespace FileTree

variable (tree : FileTree)

def at? (place : Place) : Option Content :=
  if place.isEmpty then some .folder
  else match tree.entries.lookup place with
    | some content => some content
    | none => if tree.entries.any fun e => place.isPrefixOf e.1 then some .folder else none

def step (place : Place) (name : String) : Except Fault Place :=
  if name = "" then .ok place
  else if tree.unsearched.contains place then .error (.file .denied)
  else if name = "." then .ok place
  else if name = ".." then .ok place.dropLast
  else if Path.maxNameSize < name.utf8ByteSize then .error (.file .tooLong)
  else .ok (place ++ [name])

def follow (place : Place) : List String → Except Fault (Place × Content)
  | [] =>
      match tree.at? place with
      | some content => .ok (place, content)
      | none => .error (.file .missing)
  | name :: names =>
      match tree.at? place with
      | none => .error (.file .missing)
      | some .folder =>
          match tree.step place name with
          | .error fault => .error fault
          | .ok next => follow next names
      | some _ => .error (.file .notFolder)

def resolve (current : Place) (path : String) : Except Fault (Place × Content) :=
  if path = "" then .error (.file .missing)
  else if Path.maxSize < path.utf8ByteSize then .error (.file .tooLong)
  else tree.follow (if (Path.ofString path).isAbsolute then [] else current) (Path.piecesOf path)

def read (current : Place) (path : String) : Source :=
  (tree.resolve current path).map (·.2)

def find (current : Place) (path : String) : Except Fault (Option (Place × Content)) :=
  match tree.resolve current path with
  | .ok found => .ok (some found)
  | .error fault => if fault.leadsNowhere then .ok none else .error fault

def namesBelow (place : Place) : List Place :=
  let above := (tree.entries.filter fun e => place.isPrefixOf e.1).map (·.1.drop place.length)
  above.flatMap fun names => (List.range names.length).map fun n => names.take (n + 1)

def below (place : Place) : List Place :=
  (tree.namesBelow place).eraseDups.mergeSort Path.namesLe

def lists (place names : Place) : Bool :=
  (List.range names.length).all fun n =>
    !tree.unlisted.contains (place ++ names.take n) &&
      (n + 1 == names.length || !tree.unsearched.contains (place ++ names.take n))

def listed (place : Place) : List Place :=
  (tree.below place).filter (tree.lists place)

def hasFolder (place : Place) : Bool :=
  (tree.at? place).any Content.isFolder

def listing (folder : Path) (place : Place) : Except Fault (List Place) :=
  let names := tree.listed place
  if names.any fun n =>
      tree.hasFolder (place ++ n) && Path.maxSize < (folder.append n).toString.utf8ByteSize then
    .error (.file .tooLong)
  else .ok names

end FileTree

end Chunkwise
