import Chunkwise.Text.Basic

namespace Chunkwise

structure LineStart where
  offset : Nat
  rest : Text

structure LineIndex where
  length : Nat
  lastEnd : Nat
  starts : Array LineStart

namespace LineIndex

def startsFrom (found : Array LineStart) (offset : Nat) : Text → Array LineStart
  | [] => found
  | c :: t =>
      let next := offset + 1
      startsFrom (if c = '\n' && !t.isEmpty then found.push ⟨next, t⟩ else found) next t

def ofText (t : Text) : LineIndex where
  length := t.length
  lastEnd := if t.endsIn '\n' then t.length - 1 else t.length
  starts := if t.isEmpty then #[] else startsFrom #[⟨0, t⟩] 0 t

variable (ix : LineIndex)

def lineCount : Nat :=
  ix.starts.size

def searchLine (offset : Int) (lo hi : Nat) : Nat :=
  if lo < hi then
    match ix.starts[(lo + hi) / 2]? with
    | none => lo
    | some s =>
        if offset < s.offset then searchLine offset lo ((lo + hi) / 2)
        else searchLine offset ((lo + hi) / 2 + 1) hi
  else lo
termination_by hi - lo

def lineOf (offset : Int) : Nat :=
  max 1 (ix.searchLine offset 0 ix.starts.size)

def offsetOf (line : Int) : Nat :=
  if line < 1 then 0
  else match ix.starts[(line - 1).toNat]? with
    | some s => s.offset
    | none => ix.length

def lineEnd (line : Nat) : Nat :=
  match ix.starts[line]? with
  | some s => s.offset - 1
  | none => ix.lastEnd

/-- As `lineEnd`, for any number: a negative one counts starts from the last backwards, and there is
no answer once they run out. -/
def lineEndOffset? (line : Int) : Option Int :=
  if 0 ≤ line then
    match ix.starts[line.toNat]? with
    | some s => some (s.offset - 1)
    | none => some ix.lastEnd
  else if 0 ≤ ix.lineCount + line then
    ix.starts[(ix.lineCount + line).toNat]?.map fun s => (s.offset : Int) - 1
  else none

def restFrom (line : Nat) : Text :=
  match ix.starts[line - 1]? with
  | some s => s.rest
  | none => []

def extract (first last : Int) : Text :=
  let first := max 1 first
  let last := min last ix.lineCount
  if last < first then []
  else (ix.restFrom first.toNat).take (ix.lineEnd last.toNat - ix.offsetOf first)

end LineIndex

end Chunkwise
