namespace Chunkwise

abbrev Text := List Char

namespace Text

def joinLines (pieces : List Text) : Text :=
  List.intercalate ['\n'] pieces

def slice (t : Text) (start stop : Nat) : Text :=
  (t.drop start).take (stop - start)

def occursIn (needle : Text) : Text → Bool
  | [] => needle.isEmpty
  | c :: t => needle.isPrefixOf (c :: t) || occursIn needle t

def endsIn (t : Text) (c : Char) : Bool :=
  t.getLast? == some c

end Text

end Chunkwise
