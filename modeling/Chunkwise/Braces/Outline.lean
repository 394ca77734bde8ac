import Chunkwise.Braces.Header
import Chunkwise.Text.Lines

namespace Chunkwise

namespace Braces

inductive BlockKind where
  | function
  | classLike
  deriving DecidableEq

structure Block where
  kind : BlockKind
  name : String
  signature : Text
  first : Nat
  last : Nat

structure Waiting where
  index : Nat
  depth : Int

structure OutlineScan where
  depth : Int := 0
  blocks : Array Block := #[]
  waiting : List Waiting := []
  imports : Array Outline.Import := #[]
  exports : Array Outline.Export := #[]

namespace OutlineScan

def endAt (line : Nat) (blocks : Array Block) (w : Waiting) : Array Block :=
  blocks.modify w.index fun b => { b with last := line }

def openBlock (s : OutlineScan) (kind : BlockKind) (header : Pattern) (line : Text) (number : Nat) :
    OutlineScan :=
  match header.search line with
  | none => s
  | some m =>
      { s with
        blocks := s.blocks.push ⟨kind, String.ofList m.firstGroup, line, number, number⟩
        waiting := ⟨s.blocks.size, s.depth⟩ :: s.waiting }

def character (number : Nat) (s : OutlineScan) (c : Char) : OutlineScan :=
  if c = '{' then { s with depth := s.depth + 1 }
  else if c = '}' then
    let depth := s.depth - 1
    let (ended, waiting) := s.waiting.partition fun w => w.depth == depth
    { s with depth, waiting, blocks := ended.foldl (endAt number) s.blocks }
  else s

def header (s : OutlineScan) (line : Text) (number : Nat) : OutlineScan :=
  let s := s.openBlock .function functionHeader line number
  let s := s.openBlock .classLike classHeader line number
  { s with
    imports := match importSource line with
      | none => s.imports
      | some source => s.imports.push ⟨source, number⟩
    exports := match exported line with
      | none => s.exports
      | some (name, kind) => s.exports.push ⟨name, kind, number⟩ }

def step (s : OutlineScan) (numbered : Text × Nat) : OutlineScan :=
  numbered.1.foldl (character numbered.2) (s.header numbered.1.trim numbered.2)

def finish (s : OutlineScan) (lineCount : Nat) : Outline :=
  let blocks := (s.waiting.foldl (endAt lineCount) s.blocks).toList
  { functions := (blocks.filter (·.kind = .function)).map fun b => ⟨b.name, b.first, b.last, b.signature⟩
    classes := (blocks.filter (·.kind = .classLike)).map fun b => ⟨b.name, b.first, b.last⟩
    imports := s.imports.toList
    exports := s.exports.toList }

end OutlineScan

def outlineScan (t : Text) : OutlineScan :=
  t.numberedLines.foldl OutlineScan.step {}

def outline (t : Text) : Outline :=
  (outlineScan t).finish t.lines.length

end Braces

end Chunkwise
