import Chunkwise.Stride
import Mathlib.Data.List.Basic

namespace Chunkwise

namespace Stride

theorem exists_ofLines {maxLines overlap : Int} (h : 1 ≤ maxLines)
    (hoverlap : 0 ≤ overlap ∧ overlap < maxLines) : ∃ s, ofLines maxLines overlap = .ok s := by
  rw [ofLines, if_neg (by omega), dif_pos hoverlap]
  exact ⟨_, rfl⟩

theorem ofLines_eq_ok {maxLines overlap : Int} {s : Stride} (h : ofLines maxLines overlap = .ok s) :
    1 ≤ maxLines ∧ 0 ≤ overlap ∧ overlap < maxLines := by
  rw [ofLines] at h
  split at h
  · cases h
  · split at h
    · next hbounds => exact ⟨by omega, hbounds⟩
    · cases h

theorem width_of_ofLines {maxLines overlap : Int} {s : Stride}
    (h : ofLines maxLines overlap = .ok s) :
    (s.width : Int) = maxLines ∧ (s.overlap : Int) = overlap := by
  have hbounds := ofLines_eq_ok h
  rw [ofLines, if_neg (by omega), dif_pos hbounds.2] at h
  cases h
  exact ⟨Int.toNat_of_nonneg (by omega), Int.toNat_of_nonneg (by omega)⟩

variable {α : Type} (s : Stride)

def grid (before : Nat) (items : List α) : List (Window α) :=
  ⟨before, items.take s.width⟩ ::
    if s.width < items.length then grid (before + s.step) (items.drop s.step) else []
termination_by items.length
decreasing_by
  have := s.step_pos
  simp only [List.length_drop]
  omega

theorem grid_eq (before : Nat) (items : List α) :
    s.grid before items = ⟨before, items.take s.width⟩ ::
      if s.width < items.length then s.grid (before + s.step) (items.drop s.step) else [] := by
  rw [grid]

theorem step_add_overlap : s.step + s.overlap = s.width := by
  have := s.overlap_lt_width
  simp only [step]
  omega

theorem kept_append_rest {kept rest : List α} (h : kept.length ≤ s.overlap)
    (hrest : rest.drop (s.width - kept.length) ≠ []) :
    ((kept ++ rest).take s.width).drop s.step ++ rest.drop (s.width - kept.length) =
      (kept ++ rest).drop s.step := by
  have hstep := s.step_add_overlap
  have hlen : s.width - kept.length < rest.length := by
    by_contra hle
    exact hrest (List.drop_of_length_le (Nat.not_lt.mp hle))
  have hdrop : rest.drop (s.width - kept.length) = (kept ++ rest).drop s.width := by
    rw [List.drop_append, List.drop_of_length_le (l := kept) (by omega), List.nil_append]
  rw [hdrop, ← List.drop_append_of_le_length, List.take_append_drop]
  simp only [List.length_take, List.length_append]
  omega

theorem readFrom_eq (found : Array (Window α)) (before : Nat) (kept rest : List α)
    (h : kept.length ≤ s.overlap) :
    s.readFrom found before kept rest =
      found ++ if rest = [] then [] else s.grid before (kept ++ rest) := by
  fun_induction readFrom s found before kept rest with
  | case1 => simp
  | case2 found before kept x rest room items ih =>
      have hstep := s.step_add_overlap
      have hroom : room = s.width - kept.length := by
        simp only [room]
        omega
      have hitems : items = (kept ++ x :: rest).take s.width := by
        simp only [items, hroom, List.take_append, List.take_of_length_le (l := kept)
          (show kept.length ≤ s.width by omega)]
      have hkept : (items.drop s.step).length ≤ s.overlap := by
        simp only [hitems, List.length_drop, List.length_take]
        omega
      rw [ih hkept, if_neg (List.cons_ne_nil x rest), grid_eq s before, ← hitems,
        Array.appendList_cons]
      congr 1
      by_cases hlong : s.width < (kept ++ x :: rest).length
      · have hne : (x :: rest).drop room ≠ [] := by
          rw [← List.length_pos_iff, List.length_drop]
          simp only [List.length_append] at hlong
          omega
        rw [if_pos hlong, if_neg hne, hitems, hroom, s.kept_append_rest h (hroom ▸ hne)]
      · have hnil : (x :: rest).drop room = [] := by
          rw [List.drop_eq_nil_iff]
          simp only [List.length_append] at hlong
          omega
        rw [if_neg hlong, if_pos hnil]

theorem read_eq (items : List α) : s.read items = if items = [] then [] else s.grid 0 items := by
  simp [read, readFrom_eq]

def windowCount (n : Nat) : Nat :=
  if n = 0 then 0 else (n - s.overlap - 1) / s.step + 1

theorem windowCount_of_le {n : Nat} (hpos : 0 < n) (h : n ≤ s.width) : s.windowCount n = 1 := by
  have hstep := s.step_add_overlap
  have hlt : n - s.overlap - 1 < s.step := by
    have := s.step_pos
    omega
  rw [windowCount, if_neg (by omega), Nat.div_eq_of_lt hlt]

theorem windowCount_of_lt {n : Nat} (h : s.width < n) :
    s.windowCount n = s.windowCount (n - s.step) + 1 := by
  have hstep := s.step_add_overlap
  have hpos := s.step_pos
  have hsplit : n - s.overlap - 1 = n - s.step - s.overlap - 1 + s.step := by omega
  rw [windowCount, windowCount, if_neg (by omega), if_neg (by omega), hsplit,
    Nat.add_div_right _ hpos]

theorem lt_windowCount_iff {n k : Nat} :
    k < s.windowCount n ↔ 0 < n ∧ (k = 0 ∨ k * s.step + s.overlap < n) := by
  rw [windowCount]
  split
  · omega
  · cases k with
    | zero => exact iff_of_true (Nat.succ_pos _) ⟨by omega, .inl rfl⟩
    | succ k =>
        have hpos : 0 < (k + 1) * s.step := Nat.mul_pos k.succ_pos s.step_pos
        rw [Nat.add_lt_add_iff_right, Nat.lt_iff_add_one_le, Nat.le_div_iff_mul_le s.step_pos]
        omega

theorem grid_eq_map (before : Nat) {items : List α} (hne : items ≠ []) :
    s.grid before items = (List.range (s.windowCount items.length)).map fun k =>
      ⟨before + k * s.step, (items.drop (k * s.step)).take s.width⟩ := by
  fun_induction grid s before items with
  | case1 before items ih =>
      split
      · next hlong =>
          have hstep := s.step_add_overlap
          have hrest : items.drop s.step ≠ [] := by
            rw [← List.length_pos_iff, List.length_drop]
            omega
          rw [s.windowCount_of_lt hlong, List.range_succ_eq_map, List.map_cons, List.map_map,
            ih hlong hrest, List.length_drop]
          simp [Function.comp_def, Nat.succ_mul, Nat.add_assoc, Nat.add_comm s.step]
      · next hshort =>
          rw [s.windowCount_of_le (List.length_pos_iff.mpr hne) (Nat.not_lt.mp hshort)]
          simp

theorem read_eq_map (items : List α) :
    s.read items = (List.range (s.windowCount items.length)).map fun k =>
      ⟨k * s.step, (items.drop (k * s.step)).take s.width⟩ := by
  rw [read_eq]
  split
  · next hnil => simp [hnil, windowCount]
  · next hne => simpa using s.grid_eq_map 0 hne

theorem mem_grid {before : Nat} {items : List α} (hne : items ≠ []) {w : Window α}
    (h : w ∈ s.grid before items) :
    ∃ d < items.length, w = ⟨before + d, (items.drop d).take s.width⟩ := by
  fun_induction grid s before items with
  | case1 before items ih =>
      rcases List.mem_cons.mp h with rfl | h
      · exact ⟨0, List.length_pos_iff.mpr hne, rfl⟩
      · split at h
        · next hlong =>
            have hstep := s.step_add_overlap
            have hlt : s.step < items.length := by omega
            obtain ⟨d, hd, rfl⟩ := ih hlong (by simpa using hlt) h
            refine ⟨s.step + d, ?_, ?_⟩
            · simp only [List.length_drop] at hd
              omega
            · rw [List.drop_drop, Nat.add_assoc]
        · simp at h

theorem mem_read {items : List α} {w : Window α} (h : w ∈ s.read items) :
    w.before < items.length ∧ w.items = (items.drop w.before).take s.width := by
  rw [read_eq] at h
  split at h
  · simp at h
  · next hne =>
      obtain ⟨d, hd, rfl⟩ := s.mem_grid hne h
      simpa using hd

theorem exists_mem_grid (before : Nat) {items : List α} {i : Nat} (h : i < items.length) :
    ∃ w ∈ s.grid before items, w.before ≤ before + i ∧ before + i < w.before + w.items.length := by
  fun_induction grid s before items generalizing i with
  | case1 before items ih =>
      by_cases hi : i < s.width
      · refine ⟨_, List.mem_cons_self, by simp, ?_⟩
        simp only [List.length_take]
        omega
      · have hstep := s.step_add_overlap
        have hlong : s.width < items.length := by omega
        obtain ⟨w, hw, hle, hlt⟩ := ih hlong (i := i - s.step) (by rw [List.length_drop]; omega)
        rw [if_pos hlong]
        exact ⟨w, List.mem_cons_of_mem _ hw, by omega, by omega⟩

theorem exists_mem_read {items : List α} {i : Nat} (h : i < items.length) :
    ∃ w ∈ s.read items, w.before ≤ i ∧ i < w.before + w.items.length := by
  rw [read_eq, if_neg (by rintro rfl; simp at h)]
  simpa using s.exists_mem_grid 0 h

end Stride

end Chunkwise
