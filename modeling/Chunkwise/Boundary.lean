import Chunkwise.Kind

namespace Chunkwise

structure Boundary where
  first : Int
  last : Int
  kind : Kind
  name : Option String
  deriving DecidableEq

def Boundary.size (b : Boundary) : Int :=
  b.last - b.first + 1

end Chunkwise
