import Chunkwise.Pattern.Basic

namespace Chunkwise

namespace Markdown

open Pattern

def isHash (c : Char) : Bool :=
  c == '#'

def headingLine : Pattern :=
  chain [start, group (seq (one isHash) (upTo isHash 5)), blanks, group (plus notNewline), finish]

structure Heading where
  level : Nat
  title : String
  deriving DecidableEq

def heading? (line : Text) : Option Heading :=
  (headingLine.matchStart line).map fun m =>
    ⟨m.firstGroup.length, String.ofList ((m.group? 1).getD []).trim⟩

def isInfoChar (c : Char) : Bool :=
  isWordChar c || c == '+' || c == '#' || c == '.' || c == '-'

def fenceLine : Pattern :=
  chain [start, anyBlanks, literals ["```", "~~~"], anyBlanks, opt (group (plus isInfoChar)),
    anything, finish]

structure Fence where
  language : Option String
  deriving DecidableEq

def fence? (line : Text) : Option Fence :=
  (fenceLine.matchStart line).map fun m => ⟨(m.group? 0).map String.ofList⟩

end Markdown

end Chunkwise
