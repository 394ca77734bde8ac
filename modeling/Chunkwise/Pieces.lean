import Chunkwise.Span

namespace Chunkwise

/-- How many pieces of `width` lines a number of lines makes. A negative width makes none, and zero is
no width. The quotient is taken in binary floating point, where it vanishes when it is at most
`2 ^ (-1075)`; that makes no piece either. -/
def pieceCount (lines : Nat) (width : Int) : Except Fault Nat :=
  if width = 0 then .error .divisionByZero
  else if width < 0 then .ok 0
  else if lines <<< 1075 ≤ width.toNat then .ok 0
  else .ok ((lines + width.toNat - 1) / width.toNat)

namespace Span

def piece (s : Span) (width : Int) (index : Nat) : Except Fault Span :=
  ofLines (s.first + index * width) (min (s.first + index * width + width - 1) s.last)

def pieces (s : Span) (width : Int) : Except Fault (List Span) := do
  (List.range (← pieceCount s.size width)).mapM (s.piece width)

end Span

end Chunkwise
