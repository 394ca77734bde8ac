import Chunkwise.LineChunks

namespace Chunkwise

structure WholeText where
  make : Text → Except Fault (List Chunk)
  maxLines : Int
  overlap : Int

def WholeText.chunkSource (w : WholeText) (source : Source) (maxSize : Int) : Feed :=
  match source.size with
  | .error fault => .broken fault
  | .ok size =>
      if maxSize < size then LineChunks.ofSource source w.maxLines w.overlap
      else .ofExcept do w.make (← source.text)

end Chunkwise
