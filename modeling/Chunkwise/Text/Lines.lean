import Chunkwise.Text.Basic

namespace Chunkwise

namespace Text

def consLine (c : Char) (rest : List Text) : List Text :=
  if c = '\n' then [] :: rest
  else match rest with
    | [] => [[c]]
    | line :: lines => (c :: line) :: lines

def lines (t : Text) : List Text :=
  t.foldr consLine []

@[simp] theorem lines_nil : lines [] = [] := rfl

@[simp] theorem lines_cons (c : Char) (t : Text) : lines (c :: t) = consLine c (lines t) := rfl

def numberedLines (t : Text) : List (Text × Nat) :=
  t.lines.zipIdx 1

def countLines (t : Text) : Nat :=
  if t.isEmpty then 0
  else if t.endsIn '\n' then t.count '\n' else t.count '\n' + 1

end Text

end Chunkwise
