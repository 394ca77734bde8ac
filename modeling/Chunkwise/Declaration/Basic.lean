import Chunkwise.Declaration.Extent
import Chunkwise.Pattern.Basic
import Chunkwise.Text.LineIndex

namespace Chunkwise

structure Declaration where
  form : DeclarationForm
  name : String
  start : Nat
  stop : Nat
  span : Span
  text : Text

namespace Declaration

open Pattern

def maxLength : Nat := 50000

def cutMark : Text :=
  "\n// [TRUNCATED]".toList

def capped (length : Nat) (t : Text) : Text :=
  if maxLength < length then t.take maxLength ++ cutMark else t.take length

def headers : List (DeclarationForm × Pattern) := [
  (.function, chain [wordEdge, optWord "export", optWord "async", literal "function", blanks, wordGroup]),
  (.classBody, chain [wordEdge, optWord "export", optWord "abstract", literal "class", blanks, wordGroup]),
  (.interfaceBody, chain [wordEdge, optWord "export", literal "interface", blanks, wordGroup]),
  (.typeAlias,
    chain [wordEdge, optWord "export", literal "type", blanks, wordGroup, anyBlanks, char '=']),
  (.constant,
    chain [wordEdge, optWord "export", literal "const", blanks, wordGroup, anyBlanks, char '='])]

structure Header where
  rank : Nat
  form : DeclarationForm
  found : Match

def Header.start (h : Header) : Nat :=
  h.found.start.offset

def Header.precedes (h k : Header) : Bool :=
  h.start < k.start || (h.start == k.start && h.rank ≤ k.rank)

def headersOf (t : Text) : List Header :=
  let found := (headers.zipIdx).flatMap fun ((form, pattern), rank) =>
    (pattern.findAll t).map (Header.mk rank form)
  found.mergeSort Header.precedes

def semicolonsEnd (t : Text) : Nat :=
  (t.foldl (fun (s : Nat × Nat) c => (s.1 + 1, if c == ';' then s.1 + 1 else s.2)) (0, 0)).2

def ofHeader (ix : LineIndex) (semicolons : Nat) (h : Header) : Declaration :=
  let rest := h.found.start.rest
  let stop := match extent? (endingOf h.form) (h.start < semicolons) rest with
    | some i => h.start + i
    | none => ix.length - 1
  { form := h.form
    name := String.ofList h.found.firstGroup
    start := h.start
    stop
    span := (Span.line (ix.lineOf h.start - 1)).extendTo (ix.lineOf stop)
    text := capped (stop + 1 - h.start) rest }

def keepFrom (ix : LineIndex) (semicolons : Nat) (kept : Array Declaration) (free : Nat) :
    List Header → Array Declaration
  | [] => kept
  | h :: hs =>
      if h.start < free then keepFrom ix semicolons kept free hs
      else
        let d := ofHeader ix semicolons h
        keepFrom ix semicolons (kept.push d) (d.stop + 1) hs

def allOf (t : Text) : List Declaration :=
  (keepFrom (LineIndex.ofText t) (semicolonsEnd t) #[] 0 (headersOf t)).toList

end Declaration

end Chunkwise
