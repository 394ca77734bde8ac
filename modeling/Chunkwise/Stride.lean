import Chunkwise.Fault

namespace Chunkwise

structure Stride where
  width : Nat
  overlap : Nat
  overlap_lt_width : overlap < width

namespace Stride

def step (s : Stride) : Nat :=
  s.width - s.overlap

theorem step_pos (s : Stride) : 0 < s.step := by
  have := s.overlap_lt_width
  simp only [step]
  omega

def ofLines (maxLines overlap : Int) : Except Fault Stride :=
  if maxLines ≤ 0 then .error (.maxLinesNotPositive maxLines)
  else if h : 0 ≤ overlap ∧ overlap < maxLines then
    .ok ⟨maxLines.toNat, overlap.toNat, by omega⟩
  else .error (.overlapOutsideLines overlap maxLines)

def ofChars (size overlap : Int) : Except Fault Stride :=
  if size ≤ 0 then .error (.windowSizeNotPositive size)
  else if h : 0 ≤ overlap ∧ overlap < size then .ok ⟨size.toNat, overlap.toNat, by omega⟩
  else .error (.overlapOutsideWindow overlap)

variable {α : Type}

structure Window (α : Type) where
  before : Nat
  items : List α

def readFrom (s : Stride) (found : Array (Window α)) (before : Nat) (kept : List α) :
    List α → Array (Window α)
  | [] => found
  | x :: rest =>
      let room := s.width - min kept.length s.overlap
      let items := kept ++ (x :: rest).take room
      readFrom s (found.push ⟨before, items⟩) (before + s.step) (items.drop s.step)
        ((x :: rest).drop room)
termination_by rest => rest.length
decreasing_by
  have := s.overlap_lt_width
  simp only [List.length_drop, List.length_cons]
  omega

def read (s : Stride) (items : List α) : List (Window α) :=
  (s.readFrom #[] 0 [] items).toList

end Stride

end Chunkwise
