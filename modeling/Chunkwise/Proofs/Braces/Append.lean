import Chunkwise.Braces.Boundaries
import Chunkwise.Braces.Outline
import Chunkwise.Proofs.Text.Lines

namespace Chunkwise

def Boundary.shift (b : Boundary) (lines : Nat) : Boundary :=
  { b with first := b.first + lines, last := b.last + lines }

namespace Outline

def Function.shift (f : Function) (lines : Nat) : Function :=
  { f with first := f.first + lines, last := f.last + lines }

def ClassLike.shift (c : ClassLike) (lines : Nat) : ClassLike :=
  { c with first := c.first + lines, last := c.last + lines }

def Import.shift (i : Import) (lines : Nat) : Import :=
  { i with line := i.line + lines }

def Export.shift (e : Export) (lines : Nat) : Export :=
  { e with line := e.line + lines }

end Outline

def Outline.under (o above : Outline) (lines : Nat) : Outline where
  functions := above.functions ++ o.functions.map (·.shift lines)
  classes := above.classes ++ o.classes.map (·.shift lines)
  imports := above.imports ++ o.imports.map (·.shift lines)
  exports := above.exports ++ o.exports.map (·.shift lines)

namespace Braces

variable {s t line : Text} {n m k : Nat}

def Opened.shift (o : Opened) (lines : Nat) : Opened :=
  { o with first := o.first + lines }

theorem Opened.close_shift (o : Opened) (last n : Nat) :
    (o.shift n).close (last + n) = (o.close last).shift n := by
  simp [close, shift, Boundary.shift]

namespace Scan

def under (s above : Scan) (lines : Nat) : Scan where
  depth := s.depth
  opened := s.opened.map (·.shift lines)
  found := above.found ++ s.found.map (·.shift lines)

theorem under_empty {above : Scan} (hdepth : above.depth = 0) (hopened : above.opened = none) (n : Nat) :
    above = under {} above n := by
  cases above
  simp_all [under]

theorem openedOn_under (s above : Scan) (line : Text) (k n : Nat) :
    (s.under above n).openedOn line (k + n) = (s.openedOn line k).map (·.shift n) := by
  cases hs : s.opened with
  | some o => simp [openedOn, under, hs]
  | none =>
      simp only [openedOn, under, hs, Option.map_none]
      split
      · rfl
      · rfl

theorem step_under (s above : Scan) (line : Text) (k n : Nat) :
    (s.under above n).step (line, k + n) = (s.step (line, k)).under above n := by
  rw [step, step]
  simp only [openedOn_under]
  cases s.openedOn line.trim k with
  | none => rfl
  | some o =>
      simp only [Option.map_some]
      change (if s.depth + balance line = 0 && line.trim.endsIn '}' then _ else _) = _
      split
      · simp only [under, Opened.close_shift, Array.map_push, Array.append_push, Option.map_none]
      · rfl

theorem finish_under (s above : Scan) (m n : Nat) :
    (s.under above n).finish (m + n) = above.found.toList ++ (s.finish m).map (·.shift n) := by
  cases hs : s.opened with
  | none => simp [finish, under, hs]
  | some o => simp [finish, under, hs, Opened.close_shift]

end Scan

theorem scan_append (hs : s.EndsLine) (hdepth : (scan s).depth = 0) (hopened : (scan s).opened = none)
    (t : Text) : scan (s ++ t) = (scan t).under (scan s) s.lines.length := by
  have hend : s.numberedLines.foldl Scan.step {} = Scan.under {} (scan s) s.lines.length :=
    Scan.under_empty hdepth hopened _
  exact Text.foldl_numberedLines_append (fun x : Scan => x.under (scan s) s.lines.length) hs t hend
    fun x line n => x.step_under (scan s) line n s.lines.length

theorem boundaries_append (hs : s.EndsLine) (hdepth : (scan s).depth = 0) (hopened : (scan s).opened = none)
    (t : Text) : boundaries (s ++ t) = boundaries s ++ (boundaries t).map (·.shift s.lines.length) := by
  have hfound : boundaries s = (scan s).found.toList := by
    rw [boundaries, Scan.finish, hopened]
  rw [hfound, boundaries, boundaries, scan_append hs hdepth hopened, Text.lines_append hs,
    List.length_append, Nat.add_comm, Scan.finish_under]

theorem modify_append_add {α : Type} (xs ys : Array α) (i : Nat) (f : α → α) :
    (xs ++ ys).modify (i + xs.size) f = xs ++ ys.modify i f := by
  apply Array.ext_getElem?
  intro j
  rw [Array.getElem?_modify, Array.getElem?_append, Array.getElem?_append, Array.getElem?_modify]
  by_cases hj : j < xs.size
  · rw [if_pos hj, if_pos hj, if_neg (by omega)]
  · rw [if_neg hj, if_neg hj]
    by_cases hij : i + xs.size = j
    · rw [if_pos hij, if_pos (by omega)]
    · rw [if_neg hij, if_neg (by omega)]

theorem modify_map {α : Type} {f f' g : α → α} (h : ∀ x, f' (g x) = g (f x)) (xs : Array α) (i : Nat) :
    (xs.map g).modify i f' = (xs.modify i f).map g := by
  apply Array.ext_getElem?
  intro j
  rw [Array.getElem?_modify, Array.getElem?_map, Array.getElem?_map, Array.getElem?_modify]
  by_cases hij : i = j
  · rw [if_pos hij, if_pos hij, Option.map_map, Option.map_map]
    congr 1
    exact funext h
  · rw [if_neg hij, if_neg hij]

def Block.shift (b : Block) (lines : Nat) : Block :=
  { b with first := b.first + lines, last := b.last + lines }

def Waiting.shift (w : Waiting) (blocks : Nat) : Waiting :=
  { w with index := w.index + blocks }

namespace OutlineScan

def under (s above : OutlineScan) (lines : Nat) : OutlineScan where
  depth := s.depth
  blocks := above.blocks ++ s.blocks.map (·.shift lines)
  waiting := s.waiting.map (·.shift above.blocks.size)
  imports := above.imports ++ s.imports.map (·.shift lines)
  exports := above.exports ++ s.exports.map (·.shift lines)

theorem under_empty {above : OutlineScan} (hdepth : above.depth = 0) (hwaiting : above.waiting = [])
    (n : Nat) : above = under {} above n := by
  cases above
  simp_all [under]

theorem endAt_under (above blocks : Array Block) (w : Waiting) (k n : Nat) :
    endAt (k + n) (above ++ blocks.map (·.shift n)) (w.shift above.size) =
      above ++ (endAt k blocks w).map (·.shift n) := by
  rw [endAt, endAt, Waiting.shift, modify_append_add]
  congr 1
  apply modify_map
  intro b
  rfl

theorem foldl_endAt_under (above blocks : Array Block) (ws : List Waiting) (k n : Nat) :
    (ws.map (·.shift above.size)).foldl (endAt (k + n)) (above ++ blocks.map (·.shift n)) =
      above ++ (ws.foldl (endAt k) blocks).map (·.shift n) := by
  rw [List.foldl_map]
  apply List.foldl_hom (fun blocks : Array Block => above ++ blocks.map (·.shift n))
  intro blocks w
  exact endAt_under above blocks w k n

theorem openBlock_under (s above : OutlineScan) (kind : BlockKind) (header : Pattern) (line : Text)
    (k n : Nat) : (s.under above n).openBlock kind header line (k + n) =
      (s.openBlock kind header line k).under above n := by
  rw [openBlock, openBlock]
  cases header.search line with
  | none => rfl
  | some m =>
      simp only [under, Array.map_push, Array.append_push, List.map_cons, Array.size_append, Array.size_map]
      rw [Nat.add_comm above.blocks.size]
      rfl

theorem character_under (s above : OutlineScan) (c : Char) (k n : Nat) :
    (s.under above n).character (k + n) c = (s.character k c).under above n := by
  rw [character, character]
  split
  · rfl
  · split
    · simp only [List.partition_eq_filter_filter]
      simp only [under, List.filter_map, foldl_endAt_under]
      rfl
    · rfl

theorem header_under (s above : OutlineScan) (line : Text) (k n : Nat) :
    (s.under above n).header line (k + n) = (s.header line k).under above n := by
  rw [header, header]
  simp only [openBlock_under]
  generalize (s.openBlock .function functionHeader line k).openBlock .classLike classHeader line k = x
  cases importSource line with
  | none =>
      cases exported line with
      | none => rfl
      | some e =>
          simp only [under, Array.map_push, Array.append_push]
          rfl
  | some source =>
      cases exported line with
      | none =>
          simp only [under, Array.map_push, Array.append_push]
          rfl
      | some e =>
          simp only [under, Array.map_push, Array.append_push]
          rfl

theorem step_under (s above : OutlineScan) (line : Text) (k n : Nat) :
    (s.under above n).step (line, k + n) = (s.step (line, k)).under above n := by
  rw [step, step, header_under]
  exact List.foldl_hom (fun x : OutlineScan => x.under above n) fun x c => x.character_under above c k n

theorem finish_under (s : OutlineScan) {above : OutlineScan} (hwaiting : above.waiting = [])
    (m n bottom : Nat) :
    (s.under above n).finish (m + n) = (s.finish m).under (above.finish bottom) n := by
  simp only [finish, under, hwaiting, foldl_endAt_under, List.foldl_nil, Outline.under,
    Array.toList_append, Array.toList_map, List.filter_append, List.filter_map, List.map_append,
    List.map_map]
  rfl

end OutlineScan

theorem outlineScan_append (hs : s.EndsLine) (hdepth : (outlineScan s).depth = 0)
    (hwaiting : (outlineScan s).waiting = []) (t : Text) :
    outlineScan (s ++ t) = (outlineScan t).under (outlineScan s) s.lines.length := by
  have hend : s.numberedLines.foldl OutlineScan.step {} =
      OutlineScan.under {} (outlineScan s) s.lines.length :=
    OutlineScan.under_empty hdepth hwaiting _
  exact Text.foldl_numberedLines_append (fun x : OutlineScan => x.under (outlineScan s) s.lines.length)
    hs t hend fun x line n => x.step_under (outlineScan s) line n s.lines.length

theorem outline_append (hs : s.EndsLine) (hdepth : (outlineScan s).depth = 0)
    (hwaiting : (outlineScan s).waiting = []) (t : Text) :
    outline (s ++ t) = (outline t).under (outline s) s.lines.length := by
  rw [outline, outline, outline, outlineScan_append hs hdepth hwaiting, Text.lines_append hs,
    List.length_append, Nat.add_comm, OutlineScan.finish_under _ hwaiting _ _ s.lines.length]

theorem read_append (hs : s.EndsLine) (t : Text) :
    ((scan s).depth = 0 → (scan s).opened = none →
      boundaries (s ++ t) = boundaries s ++ (boundaries t).map (·.shift s.countLines)) ∧
    ((outlineScan s).depth = 0 → (outlineScan s).waiting = [] →
      outline (s ++ t) = (outline t).under (outline s) s.countLines) := by
  rw [Text.countLines_eq_length]
  constructor
  · intro hdepth hopened
    exact boundaries_append hs hdepth hopened t
  · intro hdepth hwaiting
    exact outline_append hs hdepth hwaiting t

def closedFunction : Text := "func a\x7b\n\x7d\n".toList

def openClass : Text := "class B\x7b\nx".toList

theorem read_append_closedFunction :
    closedFunction.EndsLine ∧
      ((scan closedFunction).depth = 0 ∧ (scan closedFunction).opened = none) ∧
      ((outlineScan closedFunction).depth = 0 ∧ (outlineScan closedFunction).waiting = []) ∧
      boundaries (closedFunction ++ openClass) =
        [⟨1, 2, .function, some "a"⟩, ⟨3, 4, .classLike, some "B"⟩] ∧
      outline (closedFunction ++ openClass) = (outline openClass).under (outline closedFunction) 2 ∧
      (outline (closedFunction ++ openClass)).classes = [⟨"B", 3, 4⟩] := by
  have hends : closedFunction.EndsLine := by decide
  have hscan : (scan closedFunction).depth = 0 ∧ (scan closedFunction).opened = none := by decide
  have houtline : (outlineScan closedFunction).depth = 0 ∧ (outlineScan closedFunction).waiting = [] := by
    decide
  obtain ⟨hboundaries, hread⟩ := read_append hends openClass
  have hread := hread houtline.1 houtline.2
  refine ⟨hends, hscan, houtline, ?_, hread, ?_⟩
  · rw [hboundaries hscan.1 hscan.2]
    decide
  · rw [hread]
    decide

end Braces

end Chunkwise
