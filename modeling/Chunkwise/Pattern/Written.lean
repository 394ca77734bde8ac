import Chunkwise.Pattern.Basic

namespace Chunkwise

namespace Pattern

def special : List Char :=
  "()[]\x7b\x7d?*+-|^$\\.&~# \t\n\r\x0b\x0c".toList

def escapeChar (c : Char) : Text :=
  if special.contains c then ['\\', c] else [c]

def escape (t : Text) : Text :=
  t.flatMap escapeChar

inductive Token where
  | one (test : Char → Bool)
  | many

def unread : List Char :=
  "[(\x7b+?|)^$".toList

def token? (c : Char) : Option Token :=
  if c = '.' then some (.one notNewline)
  else if c = '*' then some .many
  else if unread.contains c then none
  else some (.one (· == c))

def escapedToken? (c : Char) : Option Token :=
  if c.isAlphanum then none else some (.one (· == c))

def tokensFrom? : Bool → Text → Option (List Token)
  | escaped, [] => if escaped then none else some []
  | true, c :: rest => (escapedToken? c).bind fun token => (tokensFrom? false rest).map (token :: ·)
  | false, c :: rest =>
      if c = '\\' then tokensFrom? true rest
      else (token? c).bind fun token => (tokensFrom? false rest).map (token :: ·)

def ofTokens? : List Token → Option Pattern
  | [] => some empty
  | .many :: _ => none
  | .one test :: .many :: rest => (ofTokens? rest).map (seq (star test))
  | .one test :: rest => (ofTokens? rest).map (seq (one test))

def read? (written : Text) : Option Pattern :=
  (tokensFrom? false written).bind ofTokens?

end Pattern

end Chunkwise
