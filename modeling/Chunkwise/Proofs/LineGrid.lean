import Chunkwise.Proofs.LineChunks
import Mathlib.Order.Interval.Finset.Nat

namespace Chunkwise

namespace LineChunks

variable {t : Text} {width shared : Int} {lines k : Nat} {windows : List Span}

structure Grid (width shared : Int) (lines : Nat) (windows : List Span) : Prop where
  lt_length_iff : ∀ k : Nat, k < windows.length ↔
    0 < lines ∧ (k = 0 ∨ k * (width - shared) + shared < lines)
  first_eq : ∀ (k : Nat) (h : k < windows.length),
    (windows[k].first : Int) = 1 + k * (width - shared)
  last_eq : ∀ (k : Nat) (h : k < windows.length),
    (windows[k].last : Int) = min (k * (width - shared) + width) lines

theorem succ_mul_step (k : Nat) (step : Int) : ((k + 1 : Nat) : Int) * step = k * step + step := by
  rw [Int.natCast_succ, Int.add_mul, Int.one_mul]

namespace Grid

variable (hgrid : Grid width shared lines windows)
include hgrid

theorem last_of_next (h : k + 1 < windows.length) :
    (windows[k].last : Int) = k * (width - shared) + width ∧ windows[k].last < lines := by
  -- there is a window below only if this one does not reach the last line
  have hmore := (hgrid.lt_length_iff (k + 1)).mp h
  have hlast := hgrid.last_eq k (Nat.lt_of_succ_lt h)
  have hstep := succ_mul_step k (width - shared)
  omega

theorem first_lt (hless : shared < width) {j : Nat} (hjk : j < k) (hk : k < windows.length) :
    windows[j].first < windows[k].first := by
  have hmul : (j : Int) * (width - shared) < k * (width - shared) :=
    Int.mul_lt_mul_of_pos_right (Int.ofNat_lt.mpr hjk) (Int.sub_pos_of_lt hless)
  have hfirst := hgrid.first_eq j (Nat.lt_trans hjk hk)
  have hlater := hgrid.first_eq k hk
  omega

theorem last_lt_succ (hless : shared < width) (h : k + 1 < windows.length) :
    windows[k].last < windows[k + 1].last := by
  have hlast := hgrid.last_of_next h
  have hnext := hgrid.last_eq (k + 1) h
  have hstep := succ_mul_step k (width - shared)
  omega

theorem last_lt (hless : shared < width) {j : Nat} (hjk : j < k) (hk : k < windows.length) :
    windows[j].last < windows[k].last := by
  induction k, hjk using Nat.le_induction with
  | base => exact hgrid.last_lt_succ hless hk
  | succ k hjk ih =>
      exact Nat.lt_trans (ih (Nat.lt_of_succ_lt hk)) (hgrid.last_lt_succ hless hk)

theorem pairwise (hless : shared < width) :
    windows.Pairwise fun v w => v.first < w.first ∧ v.last < w.last := by
  rw [List.pairwise_iff_getElem]
  intro j k _ hk hjk
  exact ⟨hgrid.first_lt hless hjk hk, hgrid.last_lt hless hjk hk⟩

theorem card_shared (hless : 0 ≤ shared ∧ shared < width) (h : k + 1 < windows.length) :
    ((Finset.Icc windows[k].first windows[k].last ∩
      Finset.Icc windows[k + 1].first windows[k + 1].last).card : Int) = shared := by
  have hfirst := hgrid.first_lt hless.2 (Nat.lt_add_one k) h
  have hends := hgrid.last_lt_succ hless.2 h
  have hshared : Finset.Icc windows[k].first windows[k].last ∩
      Finset.Icc windows[k + 1].first windows[k + 1].last =
        Finset.Icc windows[k + 1].first windows[k].last := by
    ext line
    simp only [Finset.mem_inter, Finset.mem_Icc]
    omega
  have hlast := (hgrid.last_of_next h).1
  have hnext := hgrid.first_eq (k + 1) h
  rw [succ_mul_step] at hnext
  rw [hshared, Nat.card_Icc]
  omega

theorem exists_new_line (hless : shared < width) (hk : k < windows.length) :
    ∃ line ∈ windows[k], ∀ (j : Nat) (hj : j < k), line ∉ windows[j] := by
  refine ⟨windows[k].last, ⟨windows[k].first_le_last, Nat.le_refl _⟩, ?_⟩
  rintro j hj ⟨-, hle⟩
  have := hgrid.last_lt hless hj hk
  omega

end Grid

def gridWindow (s : Stride) (lines k : Nat) : Span :=
  (Span.line (k * s.step)).extendTo (min (k * s.step + s.width) lines)

def gridWindows (s : Stride) (lines : Nat) : List Span :=
  (List.range (s.windowCount lines)).map (gridWindow s lines)

theorem start_lt_lines {s : Stride} (h : k < s.windowCount lines) : k * s.step < lines := by
  obtain ⟨hpos, rfl | hmore⟩ := s.lt_windowCount_iff.mp h
  · omega
  · omega

theorem last_gridWindow {s : Stride} (h : k < s.windowCount lines) :
    (gridWindow s lines k).last = min (k * s.step + s.width) lines := by
  have hstart := start_lt_lines h
  have hwidth := s.overlap_lt_width
  change max (k * s.step + 1) _ = _
  omega

theorem grid_gridWindows {s : Stride} (hs : Stride.ofLines width shared = .ok s) (lines : Nat) :
    Grid width shared lines (gridWindows s lines) := by
  obtain ⟨hwidth, hoverlap⟩ := Stride.width_of_ofLines hs
  have hstep : (s.step : Int) = width - shared := by
    have := s.step_add_overlap
    omega
  have hcast : ∀ k : Nat, ((k * s.step : Nat) : Int) = k * (width - shared) := by
    intro k
    rw [Int.natCast_mul, hstep]
  constructor
  · intro k
    have := hcast k
    rw [gridWindows, List.length_map, List.length_range, s.lt_windowCount_iff]
    omega
  · intro k h
    have := hcast k
    simp only [gridWindows, List.getElem_map, List.getElem_range]
    change ((k * s.step + 1 : Nat) : Int) = _
    omega
  · intro k h
    have := hcast k
    rw [gridWindows, List.length_map, List.length_range] at h
    simp only [gridWindows, List.getElem_map, List.getElem_range]
    rw [last_gridWindow h]
    omega

theorem ofWindow_gridWindow {s : Stride} (h : k < s.windowCount t.lines.length) :
    ofWindow ⟨k * s.step, (t.lines.drop (k * s.step)).take s.width⟩ =
      if (t.quote (gridWindow s t.lines.length k)).allBlank then none
      else some (windowChunk (gridWindow s t.lines.length k) (t.quote (gridWindow s t.lines.length k))) := by
  have hlast := last_gridWindow h
  rw [ofWindow_slice (start_lt_lines h) (gridWindow s t.lines.length k) rfl hlast,
    LineIndex.extract_span (by omega)]

def shown (t : Text) (windows : List Span) : List Span :=
  windows.filter fun w => !(t.quote w).allBlank

theorem read_eq_grid (s : Stride) (t : Text) :
    read s t = (shown t (gridWindows s t.lines.length)).map fun w => windowChunk w (t.quote w) := by
  rw [read, s.read_eq_map, List.filterMap_map, shown, gridWindows, List.filter_map, List.map_map,
    ← List.filterMap_eq_map, List.filterMap_filter]
  apply List.filterMap_congr
  intro k hk
  have hchunk := ofWindow_gridWindow (List.mem_range.mp hk)
  simp only [Function.comp_apply]
  rw [hchunk]
  cases (t.quote (gridWindow s t.lines.length k)).allBlank with
  | false => rfl
  | true => rfl

theorem pairwise_shown (hgrid : Grid width shared t.lines.length windows) (hless : shared < width) :
    ((shown t windows).map fun w => windowChunk w (t.quote w)).Pairwise fun c d =>
      c.span.first < d.span.first ∧ c.span.last < d.span.last :=
  List.pairwise_map.mpr ((hgrid.pairwise hless).filter _)

theorem overlap_of_none {o : Options} (hmax : 1 ≤ maxLines o) (hnone : o.overlap = none) :
    overlap o = min 20 (maxLines o - 1) ∧ 0 ≤ overlap o ∧ overlap o < maxLines o := by
  have hdefault : overlap o = min 20 (maxLines o - 1) := by
    rw [overlap, hnone]
    rfl
  omega

theorem ofText_on_grid (t : Text) :
    (∀ width shared : Int, 1 ≤ width → 0 ≤ shared → shared < width →
      ∃ windows chunks, Grid width shared t.lines.length windows ∧
        ofText t width shared = .ok chunks ∧
        chunks = (shown t windows).map (fun w => windowChunk w (t.quote w)) ∧
        (chunks.Pairwise fun c d => c.span.first < d.span.first ∧ c.span.last < d.span.last) ∧
        (∀ (k : Nat) (h : k + 1 < windows.length),
          ((Finset.Icc windows[k].first windows[k].last ∩
            Finset.Icc windows[k + 1].first windows[k + 1].last).card : Int) = shared) ∧
        (∀ (k : Nat) (h : k < windows.length),
          ∃ line ∈ windows[k], ∀ (j : Nat) (hj : j < k), line ∉ windows[j]) ∧
        ∀ (i : Nat) (hi : i < t.lines.length), t.lines[i].allBlank = false →
          ∃ c ∈ chunks, i + 1 ∈ c.span) ∧
    ∀ o : Options, 1 ≤ maxLines o → o.overlap = none →
      overlap o = min 20 (maxLines o - 1) ∧ (0 ≤ overlap o ∧ overlap o < maxLines o) ∧
      ∃ chunks, chunk t o = .ok chunks := by
  constructor
  · intro width shared hmax hpos hlt
    obtain ⟨s, hs⟩ := Stride.exists_ofLines hmax ⟨hpos, hlt⟩
    have hgrid := grid_gridWindows hs t.lines.length
    have hchunks : ofText t width shared = .ok (read s t) := by
      rw [ofText, hs, ← cut_eq_read]
      rfl
    refine ⟨gridWindows s t.lines.length, read s t, hgrid, hchunks, read_eq_grid s t, ?_, ?_, ?_, ?_⟩
    · rw [read_eq_grid]
      exact pairwise_shown hgrid hlt
    · intro k h
      exact hgrid.card_shared ⟨hpos, hlt⟩ h
    · intro k h
      exact hgrid.exists_new_line hlt h
    · intro i hi hvisible
      exact exists_mem_read_of_visible s hi hvisible
  · intro o hmax hnone
    obtain ⟨hoverlap, hbounds⟩ := overlap_of_none hmax hnone
    exact ⟨hoverlap, hbounds, exists_ofText t hmax hbounds⟩

def gappedText : Text := "a\n\n\nb".toList

theorem ofText_on_grid_gappedText :
    (1 : Int) ≤ 2 ∧ (0 : Int) ≤ 1 ∧ (1 : Int) < 2 ∧
      ∃ windows chunks, Grid 2 1 4 windows ∧ windows.length = 3 ∧
        ofText gappedText 2 1 = .ok chunks ∧
        chunks = (shown gappedText windows).map (fun w => windowChunk w (gappedText.quote w)) ∧
        ∃ c ∈ chunks, 4 ∈ c.span := by
  refine ⟨by decide, by decide, by decide, ?_⟩
  obtain ⟨windows, chunks, hgrid, hchunks, hshown, -, -, -, hvisible⟩ :=
    (ofText_on_grid gappedText).1 2 1 (by decide) (by decide) (by decide)
  have hlines : gappedText.lines.length = 4 := by decide
  rw [hlines] at hgrid
  have hmore := (hgrid.lt_length_iff 2).mpr (by decide)
  have hless := (hgrid.lt_length_iff 3).not.mpr (by decide)
  exact ⟨windows, chunks, hgrid, by omega, hchunks, hshown, hvisible 3 (by decide) (by decide)⟩

end LineChunks

end Chunkwise
