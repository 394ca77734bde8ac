import Chunkwise.Text.Basic

namespace Chunkwise

inductive Flag where
  | help
  | filter
  | lowQuality
  | json
  | verbose
  deriving DecidableEq, Repr

def Flag.ofLetter? : Char → Option Flag
  | 'h' => some .help
  | 'v' => some .verbose
  | _ => none

inductive Setting where
  | maxLines
  | minLines
  | overlap
  | exclude
  deriving DecidableEq, Repr

inductive Switch where
  | flag (f : Flag)
  | setting (s : Setting)
  deriving DecidableEq, Repr

namespace Switch

def names : List (String × Switch) := [
  ("help", .flag .help), ("max-lines", .setting .maxLines), ("min-lines", .setting .minLines),
  ("overlap", .setting .overlap), ("filter", .flag .filter), ("low-quality", .flag .lowQuality),
  ("exclude", .setting .exclude), ("json", .flag .json), ("verbose", .flag .verbose)]

def startingWith (start : Text) : List Switch :=
  (names.filter fun n => start.isPrefixOf n.1.toList).map (·.2)

def name (s : Switch) : String :=
  ((names.find? fun n => n.2 = s).map (·.1)).getD ""

end Switch

end Chunkwise
