import Chunkwise.Proofs.Excerpt
import Chunkwise.Proofs.SlidingWindow

namespace Chunkwise

namespace SlidingWindow

def window (t : Text) (size overlap k : Nat) : Text :=
  t.slice (k * (size - overlap)) (min (k * (size - overlap) + size) t.length)

def above (t : Text) (size overlap k : Nat) : Nat :=
  (t.take (k * (size - overlap))).count '\n'

variable {content : Content} {t : Text} {size overlap : Nat} {s : Stride} {process : Processor}
  {found : Nat → List Chunk} {made : List Chunk} {fault : Fault}

theorem window_eq (t : Text) (size overlap k : Nat) :
    window t size overlap k = (t.drop (k * (size - overlap))).take size := by
  rw [window, Text.slice, List.take_eq_take_iff, List.length_drop]
  omega

theorem exists_ofChars (h : overlap < size) :
    ∃ s, Stride.ofChars size overlap = .ok s ∧ s.width = size ∧ s.overlap = overlap := by
  have hbounds : (0 : Int) ≤ overlap ∧ (overlap : Int) < size := by omega
  rw [Stride.ofChars, if_neg (by omega), dif_pos hbounds]
  exact ⟨_, rfl, by simp, by simp⟩

theorem read_eq_windows (t : Text) (hwidth : s.width = size) (hoverlap : s.overlap = overlap) :
    s.read t = (List.range (s.windowCount t.length)).map fun k =>
      ⟨k * (size - overlap), window t size overlap k⟩ := by
  have hstep : s.step = size - overlap := by rw [Stride.step, hwidth, hoverlap]
  rw [s.read_eq_map, hwidth, hstep]
  simp only [window_eq]

def reportAt (process : Processor) (t : Text) (size overlap k : Nat) : Feed :=
  report process t k ⟨k * (size - overlap), window t size overlap k⟩

theorem ofSource_eq (htext : content.text = .ok t) (hs : Stride.ofChars size overlap = .ok s)
    (hwidth : s.width = size) (hoverlap : s.overlap = overlap) :
    ofSource (.ok content) process size overlap =
      .concat ((List.range (s.windowCount t.length)).map (reportAt process t size overlap)) := by
  have hsource : Source.text (.ok content) = .ok t := htext
  simp only [ofSource, hs, hsource]
  rw [feed_eq, read_eq_windows t hwidth hoverlap]
  congr 1
  apply List.ext_getElem (by simp)
  intro k hk hk'
  simp [reportAt]

def mark : Fault := .gaveUp "mark"

end SlidingWindow

end Chunkwise
