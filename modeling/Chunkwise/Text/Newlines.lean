import Chunkwise.Text.Basic

namespace Chunkwise

namespace Newlines

structure Reader where
  chars : Text := []
  afterReturn : Bool := false

def Reader.push (r : Reader) (c : Char) : Reader :=
  if c = '\r' then ⟨'\n' :: r.chars, true⟩
  else if c = '\n' && r.afterReturn then ⟨r.chars, false⟩
  else ⟨c :: r.chars, false⟩

end Newlines

def Text.unifyNewlines (t : Text) : Text :=
  (t.foldl Newlines.Reader.push {}).chars.reverse

end Chunkwise
