namespace Chunkwise

namespace Ranges

def search (ranges : Array (Nat × Nat)) (n lo hi : Nat) : Bool :=
  if lo < hi then
    match ranges[(lo + hi) / 2]? with
    | none => false
    | some (first, last) =>
        if n < first then search ranges n lo ((lo + hi) / 2)
        else if last < n then search ranges n ((lo + hi) / 2 + 1) hi
        else true
  else false
termination_by hi - lo

def contains (ranges : Array (Nat × Nat)) (n : Nat) : Bool :=
  search ranges n 0 ranges.size

end Ranges

end Chunkwise
