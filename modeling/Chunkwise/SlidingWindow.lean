import Chunkwise.Feed
import Chunkwise.Files.Content
import Chunkwise.Stride

namespace Chunkwise

namespace SlidingWindow

def defaultSize : Int := 50 * 1024

def defaultOverlap : Int := 5 * 1024

/-- What is made of a window. It may depend on how many windows came before, since a processor may keep a
state. The call itself can fail, and so can the work that it leaves for when the chunks are asked for. -/
abbrev Processor := Nat → Text → Except Fault Feed

def feedFrom (s : Stride) (process : Processor) (number above : Nat) (made : Array Chunk) :
    List (Stride.Window Char) → Feed
  | [] => ⟨made.toList, none⟩
  | w :: ws =>
      match process number w.items with
      | .error fault => ⟨made.toList, some fault⟩
      | .ok found =>
          let made := made ++ found.chunks.map (·.shift above)
          match found.fault with
          | some fault => ⟨made.toList, some fault⟩
          | none =>
              feedFrom s process (number + 1) (above + (w.items.take s.step).count '\n') made ws

def feed (s : Stride) (process : Processor) (t : Text) : Feed :=
  feedFrom s process 0 0 #[] (s.read t)

def ofSource (source : Source) (process : Processor) (size overlap : Int) : Feed :=
  match Stride.ofChars size overlap with
  | .error fault => .broken fault
  | .ok s =>
      match source.text with
      | .error fault => .broken fault
      | .ok t => feed s process t

end SlidingWindow

end Chunkwise
