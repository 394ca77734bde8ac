namespace Chunkwise

structure Path where
  /-- The slashes in front: none, one, or two where exactly two are written. -/
  root : String
  names : List String
  deriving DecidableEq

namespace Path

def maxSize : Nat := 4095

def maxNameSize : Nat := 255

def piecesOf (s : String) : List String :=
  (s.toList.splitOn '/').map String.ofList

def rootOf (s : String) : String :=
  match s.toList with
  | '/' :: '/' :: '/' :: _ => "/"
  | '/' :: '/' :: _ => "//"
  | '/' :: _ => "/"
  | _ => ""

def ofString (s : String) : Path where
  root := rootOf s
  names := (piecesOf s).filter fun n => n != "" && n != "."

def isAbsolute (p : Path) : Bool :=
  p.root != ""

def toString (p : Path) : String :=
  if p.root = "" && p.names.isEmpty then "."
  else p.root ++ String.intercalate "/" p.names

def append (p : Path) (names : List String) : Path :=
  { p with names := p.names ++ names }

def suffixOfName (name : String) : String :=
  let chars := name.toList
  let ending := chars.reverse.takeWhile (· != '.')
  if ending.isEmpty || chars.length ≤ ending.length + 1 then ""
  else String.ofList ('.' :: ending.reverse)

def suffix (p : Path) : String :=
  suffixOfName (p.names.getLast?.getD "")

def namesLe : List String → List String → Bool
  | [], _ => true
  | _ :: _, [] => false
  | x :: xs, y :: ys => x < y || (x == y && namesLe xs ys)

end Path

end Chunkwise
