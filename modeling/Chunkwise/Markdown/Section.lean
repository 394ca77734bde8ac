import Chunkwise.Markdown.Line
import Chunkwise.Span
import Chunkwise.Text.Lines

namespace Chunkwise

namespace Markdown

structure Section where
  span : Span
  level : Nat
  title : Option String
  deriving DecidableEq

structure SectionScan where
  inFence : Bool := false
  current : Option Section := none
  done : Array Section := #[]
  headings : Bool := false

namespace SectionScan

def closed (s : SectionScan) : Array Section :=
  match s.current with
  | none => s.done
  | some current => s.done.push current

def extend (s : SectionScan) (above : Nat) : SectionScan :=
  { s with
    current := match s.current with
      | none => some ⟨Span.line above, 0, none⟩
      | some current => some { current with span := current.span.extendTo (above + 1) } }

def step (s : SectionScan) (placed : Text × Nat) : SectionScan :=
  if (fence? placed.1).isSome then { s with inFence := !s.inFence }.extend placed.2
  else match if s.inFence then none else heading? placed.1 with
    | none => s.extend placed.2
    | some h =>
        { s with
          done := s.closed
          current := some ⟨Span.line placed.2, h.level, some h.title⟩
          headings := true }

end SectionScan

def sectionScan (t : Text) : SectionScan :=
  t.lines.zipIdx.foldl SectionScan.step {}

def sections (t : Text) : List Section :=
  let s := sectionScan t
  if s.headings then s.closed.toList else []

end Markdown

end Chunkwise
