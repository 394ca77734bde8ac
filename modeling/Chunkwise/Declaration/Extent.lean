import Chunkwise.Chunk

namespace Chunkwise

namespace Declaration

inductive Ending where
  | terminator
  | closingBrace
  deriving DecidableEq

def endingOf : DeclarationForm → Ending
  | .typeAlias | .constant => .terminator
  | _ => .closingBrace

def endingOfLabel (label : String) : Ending :=
  if label == DeclarationForm.typeAlias.label || label == DeclarationForm.constant.label then
    .terminator
  else .closingBrace

def closingBrace? : Nat → Nat → Text → Option Nat
  | _, _, [] => none
  | depth, i, c :: t =>
      if c = '{' then closingBrace? (depth + 1) (i + 1) t
      else if c = '}' && depth = 1 then some i
      else if c = '}' then closingBrace? (depth - 1) (i + 1) t
      else closingBrace? depth (i + 1) t

def terminator? (semicolonAhead : Bool) (t : Text) : Option Nat :=
  t.findIdx? (· == if semicolonAhead then ';' else '\n')

def extent? (ending : Ending) (semicolonAhead : Bool) (t : Text) : Option Nat :=
  match ending with
  | .terminator => terminator? semicolonAhead t
  | .closingBrace => closingBrace? 0 0 t

def startOffset (length : Nat) (start : Int) : Nat :=
  if start < 0 then (start + length).toNat else start.toNat

def endOffset (t : Text) (start : Int) (ending : Ending) : Int :=
  let start := startOffset t.length start
  let rest := t.drop start
  match extent? ending (rest.contains ';') rest with
  | some i => start + i
  | none => (t.length : Int) - 1

end Declaration

end Chunkwise
