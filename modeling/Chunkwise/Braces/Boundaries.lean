import Chunkwise.Boundary
import Chunkwise.Braces.Header
import Chunkwise.Text.Lines

namespace Chunkwise

namespace Braces

def balance (t : Text) : Int :=
  (t.count '{' : Int) - t.count '}'

structure Opened where
  first : Nat
  kind : Kind
  name : Option String

def Opened.close (o : Opened) (last : Nat) : Boundary :=
  ⟨o.first, last, o.kind, o.name⟩

structure Scan where
  depth : Int := 0
  opened : Option Opened := none
  found : Array Boundary := #[]

def Scan.openedOn (s : Scan) (line : Text) (number : Nat) : Option Opened :=
  match s.opened with
  | some o => some o
  | none =>
      if startsDeclaration line then some ⟨number, kindOf line, nameOf line⟩ else none

def Scan.step (s : Scan) (numbered : Text × Nat) : Scan :=
  let line := numbered.1.trim
  let depth := s.depth + balance numbered.1
  match s.openedOn line numbered.2 with
  | none => ⟨depth, none, s.found⟩
  | some o =>
      if depth = 0 && line.endsIn '}' then ⟨depth, none, s.found.push (o.close numbered.2)⟩
      else ⟨depth, some o, s.found⟩

def Scan.finish (s : Scan) (lineCount : Nat) : List Boundary :=
  match s.opened with
  | none => s.found.toList
  | some o => (s.found.push (o.close lineCount)).toList

def scan (t : Text) : Scan :=
  t.numberedLines.foldl Scan.step {}

def boundaries (t : Text) : List Boundary :=
  (scan t).finish t.lines.length

end Braces

end Chunkwise
