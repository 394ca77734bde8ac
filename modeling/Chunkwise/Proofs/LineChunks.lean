import Chunkwise.LineChunks
import Chunkwise.Proofs.Loops
import Chunkwise.Proofs.Pieces
import Chunkwise.Proofs.Text.LineIndex
import Chunkwise.Proofs.Windows

namespace Chunkwise

def Text.quote (t : Text) (s : Span) : Text :=
  joinLines ((t.lines.drop (s.first - 1)).take s.size)

def Chunk.Quotes (c : Chunk) (t : Text) : Prop :=
  c.span.last ≤ t.lines.length ∧ c.text = t.quote c.span

theorem LineIndex.extract_span {t : Text} {s : Span} (h : s.last ≤ t.lines.length) :
    (LineIndex.ofText t).extract s.first s.last = t.quote s := by
  have h₁ := s.one_le_first
  have h₂ := s.first_le_last
  have he := LineIndex.extract_ofText (t := t) (j := s.first - 1) (k := s.last - s.first) (by omega)
  rw [Text.quote, Span.size, ← he]
  congr 2 <;> omega

theorem Feed.mem_ofExcept {e : Except Fault (List Chunk)} {c : Chunk}
    (h : c ∈ (Feed.ofExcept e).chunks) : ∃ chunks, e = .ok chunks ∧ c ∈ chunks := by
  cases e with
  | error fault => cases h
  | ok chunks => exact ⟨chunks, rfl, h⟩

namespace LineChunks

def windowSpan (before count : Nat) (h : 0 < count) : Span :=
  ⟨before + 1, before + count, by omega, by omega⟩

theorem ofWindow_of_pos (w : Stride.Window Text) (h : 0 < w.items.length) :
    ofWindow w = if (Text.joinLines w.items).allBlank then none
      else some (windowChunk (windowSpan w.before w.items.length h) (Text.joinLines w.items)) := by
  simp [ofWindow, h, windowSpan]

theorem quotes_ofWindow {t : Text} {s : Stride} {w : Stride.Window Text} (hw : w ∈ s.read t.lines)
    {c : Chunk} (hc : ofWindow w = some c) : c.Quotes t := by
  obtain ⟨hbefore, hitems⟩ := s.mem_read hw
  have hlen : w.items.length = min s.width (t.lines.length - w.before) := by
    rw [hitems, List.length_take, List.length_drop]
  have hpos : 0 < w.items.length := by
    have := s.overlap_lt_width
    omega
  rw [ofWindow_of_pos w hpos] at hc
  split at hc
  · cases hc
  · cases hc
    refine ⟨?_, ?_⟩
    · simp only [windowChunk, windowSpan]
      omega
    · have hsize : (windowSpan w.before w.items.length hpos).size = w.items.length := by
        simp only [Span.size, windowSpan]
        omega
      rw [windowChunk, Text.quote, hsize]
      simp only [windowSpan, Nat.add_sub_cancel]
      conv_lhs => rw [hitems]
      rw [hlen, List.take_eq_take_min, List.length_drop]

theorem quotes_read {t : Text} {s : Stride} {c : Chunk} (h : c ∈ read s t) : c.Quotes t := by
  obtain ⟨w, hw, hc⟩ := List.mem_filterMap.mp h
  exact quotes_ofWindow hw hc

theorem ofWindow_slice {t : Text} {s : Stride} {start : Nat} (h : start < t.lines.length)
    (span : Span) (hfirst : span.first = start + 1)
    (hlast : span.last = min (start + s.width) t.lines.length) :
    ofWindow ⟨start, (t.lines.drop start).take s.width⟩ =
      if ((LineIndex.ofText t).extract span.first span.last).allBlank then none
      else some (windowChunk span ((LineIndex.ofText t).extract span.first span.last)) := by
  have hwidth := s.overlap_lt_width
  have hlen : ((t.lines.drop start).take s.width).length = min s.width (t.lines.length - start) := by
    rw [List.length_take, List.length_drop]
  have htext : (LineIndex.ofText t).extract span.first span.last =
      Text.joinLines ((t.lines.drop start).take s.width) := by
    have hsize : span.size = min s.width (t.lines.drop start).length := by
      rw [Span.size, hfirst, hlast, List.length_drop]
      omega
    rw [LineIndex.extract_span (by omega), Text.quote, hfirst, hsize, Nat.add_sub_cancel,
      ← List.take_eq_take_min]
  have hspan : windowSpan start _ (Nat.lt_of_lt_of_eq (by omega) hlen.symm) = span := by
    ext
    · exact hfirst.symm
    · simp only [windowSpan]
      omega
  rw [ofWindow_of_pos _ (Nat.lt_of_lt_of_eq (by omega) hlen.symm), htext, hspan]

theorem cutFrom_eq (t : Text) (s : Stride) (made : Array Chunk) (start : Nat) :
    cutFrom (LineIndex.ofText t) s made start = made ++
      if start < t.lines.length then (s.grid start (t.lines.drop start)).filterMap ofWindow
      else [] := by
  fun_induction cutFrom (LineIndex.ofText t) s made start with
  | case1 made start h span text made' hmore ih =>
      rw [LineIndex.lineCount_ofText] at h hmore
      have hstep := s.step_add_overlap
      have hgo : s.width < (t.lines.drop start).length := by
        rw [List.length_drop]
        omega
      rw [ih, s.grid_eq start, if_pos h, if_pos hgo, if_pos (by omega), List.filterMap_cons,
        ofWindow_slice h span rfl (by simp [span]), List.drop_drop]
      simp only [made', text]
      split <;> simp
  | case2 made start h span text made' hmore =>
      rw [LineIndex.lineCount_ofText] at h hmore
      have hstop : ¬ s.width < (t.lines.drop start).length := by
        rw [List.length_drop]
        omega
      rw [s.grid_eq start, if_pos h, if_neg hstop, List.filterMap_cons,
        ofWindow_slice h span rfl (by simp [span])]
      simp only [made', text]
      split <;> simp
  | case3 made start h =>
      rw [LineIndex.lineCount_ofText] at h
      simp [h]

theorem cut_eq_read (s : Stride) (t : Text) : cut s t = read s t := by
  rw [cut, read, s.read_eq, cutFrom_eq]
  by_cases h : t.lines = []
  · simp [h]
  · simp [h, List.length_pos_iff]

theorem exists_mem_read_of_visible {t : Text} (s : Stride) {i : Nat} (hi : i < t.lines.length)
    (hvisible : t.lines[i].allBlank = false) : ∃ c ∈ read s t, i + 1 ∈ c.span := by
  obtain ⟨w, hw, hle, hlt⟩ := s.exists_mem_read hi
  obtain ⟨-, hitems⟩ := s.mem_read hw
  have hmem : t.lines[i] ∈ w.items := by
    rw [hitems, List.mem_iff_getElem?]
    refine ⟨i - w.before, ?_⟩
    rw [hitems, List.length_take] at hlt
    rw [List.getElem?_take_of_lt (by omega), List.getElem?_drop, Nat.add_sub_cancel' hle,
      List.getElem?_eq_getElem hi]
  have htext : (Text.joinLines w.items).allBlank = false := by
    rw [Text.allBlank_joinLines, List.all_eq_false]
    exact ⟨_, hmem, by simp [hvisible]⟩
  have hchunk := ofWindow_of_pos w (List.length_pos_of_mem hmem)
  rw [htext, if_neg Bool.false_ne_true] at hchunk
  refine ⟨_, List.mem_filterMap.mpr ⟨w, hw, hchunk⟩, ?_, ?_⟩
  · exact Nat.succ_le_succ hle
  · exact hlt

theorem read_ne_nil {t : Text} (s : Stride) (h : t.allBlank = false) : read s t ≠ [] := by
  obtain ⟨i, hi, hvisible⟩ := Text.exists_visible_line h
  obtain ⟨c, hc, -⟩ := exists_mem_read_of_visible s hi hvisible
  exact List.ne_nil_of_mem hc

theorem kind_of_mem_read {t : Text} {s : Stride} {c : Chunk} (h : c ∈ read s t) :
    c.kind = .lineBased := by
  obtain ⟨w, -, hc⟩ := List.mem_filterMap.mp h
  by_cases hpos : 0 < w.items.length
  · rw [ofWindow_of_pos w hpos] at hc
    split at hc
    · cases hc
    · cases hc
      rfl
  · rw [ofWindow, dif_neg hpos] at hc
    cases hc

theorem quotes_of_mem_ofText {t : Text} {maxLines overlap : Int} {chunks : List Chunk} {c : Chunk}
    (h : ofText t maxLines overlap = .ok chunks) (hc : c ∈ chunks) : c.Quotes t := by
  obtain ⟨s, -, rfl⟩ := map_eq_ok h
  rw [cut_eq_read] at hc
  exact quotes_read hc

theorem quotes_of_mem_ofSource {source : Source} {maxLines overlap : Int} {c : Chunk}
    (hc : c ∈ (ofSource source maxLines overlap).chunks) : ∃ t, source.text = .ok t ∧ c.Quotes t := by
  obtain ⟨chunks, h, hc⟩ := Feed.mem_ofExcept hc
  obtain ⟨s, -, h⟩ := bind_eq_ok h
  obtain ⟨t, ht, h⟩ := bind_eq_ok h
  cases h
  exact ⟨t, ht, quotes_read hc⟩

theorem exists_ofText (t : Text) {maxLines overlap : Int} (hmax : 1 ≤ maxLines)
    (hoverlap : 0 ≤ overlap ∧ overlap < maxLines) : ∃ chunks, ofText t maxLines overlap = .ok chunks := by
  obtain ⟨s, hs⟩ := Stride.exists_ofLines hmax hoverlap
  exact ⟨cut s t, by rw [ofText, hs]; rfl⟩

theorem ofSource_eq {source : Source} {t : Text} (htext : source.text = .ok t)
    (maxLines overlap : Int) : ofSource source maxLines overlap = .ofExcept (ofText t maxLines overlap) := by
  rw [ofSource, ofText, htext]
  cases Stride.ofLines maxLines overlap with
  | error fault => rfl
  | ok s =>
      change Feed.ofExcept (.ok (read s t)) = Feed.ofExcept (.ok (cut s t))
      rw [cut_eq_read]

theorem exists_ofText_ne_nil {t : Text} {maxLines overlap : Int} (hmax : 1 ≤ maxLines)
    (hoverlap : 0 ≤ overlap ∧ overlap < maxLines) (ht : t.allBlank = false) :
    ∃ chunks, ofText t maxLines overlap = .ok chunks ∧ chunks ≠ [] := by
  obtain ⟨s, hs⟩ := Stride.exists_ofLines hmax hoverlap
  refine ⟨cut s t, by rw [ofText, hs]; rfl, ?_⟩
  rw [cut_eq_read]
  exact read_ne_nil s ht

theorem ofSource_ne_nil {source : Source} {t : Text} {maxLines overlap : Int}
    (htext : source.text = .ok t) (hmax : 1 ≤ maxLines)
    (hoverlap : 0 ≤ overlap ∧ overlap < maxLines) (ht : t.allBlank = false) :
    (ofSource source maxLines overlap).chunks ≠ [] := by
  obtain ⟨s, hs⟩ := Stride.exists_ofLines hmax hoverlap
  rw [ofSource, hs, htext]
  exact read_ne_nil s ht

end LineChunks

end Chunkwise
