import Chunkwise.Chunk
import Chunkwise.Markdown.Line
import Chunkwise.Text.Lines

namespace Chunkwise

namespace Markdown

structure OpenBlock where
  above : Nat
  language : Option String
  lines : List Text := []

def OpenBlock.chunk? (b : OpenBlock) : Option Chunk :=
  if h : 0 < b.lines.length then
    some
      { text := Text.joinLines b.lines.reverse
        span := ⟨b.above + 1, b.above + b.lines.length, by omega, by omega⟩
        kind := .codeBlock
        name := none
        origin := .codeBlock b.language }
  else none

structure BlockScan where
  opened : Option OpenBlock := none
  done : Array Chunk := #[]

namespace BlockScan

def closed (s : BlockScan) : Array Chunk :=
  match s.opened.bind OpenBlock.chunk? with
  | none => s.done
  | some chunk => s.done.push chunk

def step (s : BlockScan) (placed : Text × Nat) : BlockScan :=
  match fence? placed.1, s.opened with
  | some fence, none => { s with opened := some ⟨placed.2 + 1, fence.language, []⟩ }
  | some _, some _ => ⟨none, s.closed⟩
  | none, some b => { s with opened := some { b with lines := placed.1 :: b.lines } }
  | none, none => s

end BlockScan

def blockScan (t : Text) : BlockScan :=
  t.lines.zipIdx.foldl BlockScan.step {}

def codeBlocks (t : Text) : List Chunk :=
  (blockScan t).closed.toList

end Markdown

end Chunkwise
