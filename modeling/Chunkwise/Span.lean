import Chunkwise.Fault

namespace Chunkwise

structure Span where
  first : Nat
  last : Nat
  one_le_first : 1 ≤ first := by omega
  first_le_last : first ≤ last := by omega
  deriving DecidableEq

namespace Span

@[ext] theorem ext {s t : Span} (h₁ : s.first = t.first) (h₂ : s.last = t.last) : s = t := by
  cases s; cases t; simp_all

def ofLines (first last : Int) : Except Fault Span :=
  if h : 1 ≤ first ∧ first ≤ last then .ok ⟨first.toNat, last.toNat, by omega, by omega⟩
  else .error (.invalidSpan first last)

def line (above : Nat) : Span :=
  ⟨above + 1, above + 1, by omega, by omega⟩

def extendTo (s : Span) (last : Nat) : Span where
  first := s.first
  last := max s.last last
  one_le_first := s.one_le_first
  first_le_last := by have := s.first_le_last; omega

def size (s : Span) : Nat :=
  s.last - s.first + 1

def overlaps (s t : Span) : Bool :=
  s.first ≤ t.last && t.first ≤ s.last

def shift (s : Span) (lines : Nat) : Span where
  first := s.first + lines
  last := s.last + lines
  one_le_first := by have := s.one_le_first; omega
  first_le_last := by have := s.first_le_last; omega

def shiftBy (s : Span) (lines : Int) : Except Fault Span :=
  ofLines (s.first + lines) (s.last + lines)

end Span

end Chunkwise
