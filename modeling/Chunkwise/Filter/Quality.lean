import Chunkwise.Binary64
import Chunkwise.Pattern.Basic
import Chunkwise.Text.Lines

namespace Chunkwise

namespace Quality

open Pattern

def notes : List Pattern :=
  ["TODO", "FIXME", "HACK", "XXX"].map literalAnyCase

def debugging : List Pattern := [
  chain [literal "console.", literals ["log", "debug", "warn", "error"]],
  chain [wordEdge, literal "print", anyBlanks, char '('],
  chain [wordEdge, literal "println!("],
  chain [wordEdge, literal "fmt.Println"],
  chain [wordEdge, literal "System.out.println"]]

def kindsIn (ps : List Pattern) (t : Text) : Nat :=
  ps.countP (·.occursIn t)

def isComment (line : Text) : Bool :=
  ["//", "/*", "*", "#"].any fun mark => mark.toList.isPrefixOf line

def isCode (line : Text) : Bool :=
  !isComment line && line != ['{'] && line != ['}']

def visibleLines (t : Text) : List Text :=
  (t.lines.map Text.trim).filter (!·.isEmpty)

def deduction (points : Nat) (condition : Bool) : Nat :=
  if condition then points else 0

def tenths (t : Text) : Nat :=
  let lines := visibleLines t
  let all := lines.length
  if all = 0 then 0
  else
    10 - deduction 3 (all < 2 * lines.countP isComment) - deduction 2 (2 < kindsIn notes t) -
      deduction 2 (2 < kindsIn debugging t) - deduction 3 (t.length < 100) -
      deduction 3 (10 * lines.countP isCode < 3 * all)

def score (t : Text) : Rat :=
  Binary64.nearest (mkRat (tenths t) 10)

end Quality

end Chunkwise
