import Chunkwise.Pattern.Written

namespace Chunkwise

namespace Text

def replacePair (a b : Char) (new : Text) : Text → Text
  | c :: d :: rest =>
      if c = a ∧ d = b then new ++ replacePair a b new rest
      else c :: replacePair a b new (d :: rest)
  | t => t

end Text

namespace Glob

open Pattern

def written (glob : Text) : Text :=
  let stars := Text.replacePair '\\' '*' ['.', '*'] (escape glob)
  Text.replacePair '\\' '?' ['.'] stars

def toPattern? (glob : Text) : Option Pattern :=
  read? (written glob)

def occursIn (glob path : Text) : Bool :=
  (toPattern? glob).any (·.occursIn path)

end Glob

end Chunkwise
