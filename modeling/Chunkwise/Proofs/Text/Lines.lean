import Chunkwise.Proofs.Loops
import Chunkwise.Text.Blank
import Chunkwise.Text.Lines
import Mathlib.Algebra.BigOperators.Group.List.Basic
import Mathlib.Algebra.GroupWithZero.Nat

namespace Chunkwise

namespace Text

theorem lines_of_not_mem {l : Text} (hne : l ≠ []) (h : '\n' ∉ l) : l.lines = [l] := by
  induction l with
  | nil => exact absurd rfl hne
  | cons c r ih =>
      have hc : c ≠ '\n' := fun e => h (by simp [e])
      cases r with
      | nil => simp [consLine, hc]
      | cons d r =>
          rw [lines_cons, ih (by simp) fun m => h (List.mem_cons_of_mem _ m)]
          simp [consLine, hc]

theorem lines_append_newline {l : Text} (h : '\n' ∉ l) (r : Text) :
    (l ++ '\n' :: r).lines = l :: r.lines := by
  induction l with
  | nil => simp [consLine]
  | cons c l ih =>
      have hc : c ≠ '\n' := fun e => h (by simp [e])
      rw [List.cons_append, lines_cons, ih fun m => h (List.mem_cons_of_mem _ m)]
      simp [consLine, hc]

@[elab_as_elim]
theorem line_induction {motive : Text → Prop} (t : Text) (nil : motive [])
    (last : ∀ l, l ≠ [] → '\n' ∉ l → motive l)
    (more : ∀ l r, '\n' ∉ l → motive r → motive (l ++ '\n' :: r)) : motive t := by
  by_cases h : '\n' ∈ t
  · obtain ⟨l, r, rfl, hl⟩ := List.eq_append_cons_of_mem h
    exact more l r hl (line_induction r nil last more)
  · by_cases hne : t = []
    · exact hne ▸ nil
    · exact last t hne h
termination_by t.length
decreasing_by
  subst t
  simp only [List.length_append, List.length_cons]
  omega

theorem newline_not_mem_of_mem_lines {t line : Text} (h : line ∈ t.lines) : '\n' ∉ line := by
  induction t using line_induction with
  | nil => cases h
  | last l hne hl =>
      rw [lines_of_not_mem hne hl, List.mem_singleton] at h
      exact h ▸ hl
  | more l r hl ih =>
      rw [lines_append_newline hl, List.mem_cons] at h
      rcases h with rfl | h
      · exact hl
      · exact ih h

theorem endsIn_newline_of_not_mem {l : Text} (h : '\n' ∉ l) : l.endsIn '\n' = false :=
  beq_eq_false_iff_ne.mpr fun hlast => h (List.mem_of_getLast? hlast)

theorem endsIn_append_cons (l r : Text) (c d e : Char) :
    endsIn (l ++ d :: e :: r) c = endsIn (e :: r) c := by
  simp [endsIn, List.getLast?_append]

def EndsLine (t : Text) : Prop :=
  t = [] ∨ t.endsIn '\n' = true

instance (t : Text) : Decidable t.EndsLine :=
  inferInstanceAs (Decidable (_ ∨ _))

theorem lines_append {s : Text} (hs : s.EndsLine) (t : Text) : (s ++ t).lines = s.lines ++ t.lines := by
  induction s using line_induction with
  | nil => rfl
  | last l hne hl =>
      have hlast := hs.resolve_left hne
      rw [endsIn_newline_of_not_mem hl] at hlast
      cases hlast
  | more l r hl ih =>
      have hr : EndsLine r := by
        cases r with
        | nil => exact .inl rfl
        | cons c r => exact .inr ((endsIn_append_cons l r _ _ c).symm.trans (hs.resolve_left (by simp)))
      rw [List.append_assoc, List.cons_append, lines_append_newline hl, lines_append_newline hl,
        ih hr, List.cons_append]

theorem countLines_eq_length (t : Text) : t.countLines = t.lines.length := by
  induction t using line_induction with
  | nil => rfl
  | last l hne hl =>
      simp [countLines, lines_of_not_mem hne hl, hne, endsIn_newline_of_not_mem hl,
        List.count_eq_zero.mpr hl]
  | more l r hl ih =>
      rw [lines_append_newline hl, List.length_cons, ← ih]
      cases r with
      | nil => simp [countLines, endsIn, List.count_eq_zero.mpr hl]
      | cons c r =>
          have hcount : (l ++ '\n' :: c :: r).count '\n' = (c :: r).count '\n' + 1 := by
            rw [List.count_append, List.count_eq_zero.mpr hl, List.count_cons_self, Nat.zero_add]
          have hempty : (l ++ '\n' :: c :: r).isEmpty = false := by simp
          rw [countLines, countLines, endsIn_append_cons, hcount, hempty]
          simp only [List.isEmpty_cons, Bool.false_eq_true, if_false]
          split
          · rfl
          · rfl

def lineStart (t : Text) (above : Nat) : Nat :=
  ((t.lines.take above).map fun l => l.length + 1).sum

@[simp] theorem lineStart_zero (t : Text) : t.lineStart 0 = 0 := rfl

theorem lineStart_append_newline {l : Text} (h : '\n' ∉ l) (r : Text) (k : Nat) :
    (l ++ '\n' :: r).lineStart (k + 1) = l.length + 1 + r.lineStart k := by
  simp [lineStart, lines_append_newline h]

theorem lineStart_of_not_mem {l : Text} (hne : l ≠ []) (h : '\n' ∉ l) (k : Nat) :
    l.lineStart (k + 1) = l.length + 1 := by
  simp [lineStart, lines_of_not_mem hne h]

theorem lineStart_mono (t : Text) {j k : Nat} (h : j ≤ k) : t.lineStart j ≤ t.lineStart k := by
  obtain ⟨d, rfl⟩ := Nat.exists_eq_add_of_le h
  simp [lineStart, List.take_add]

theorem lineStart_lt_succ {t : Text} {k : Nat} (h : k < t.lines.length) :
    t.lineStart k < t.lineStart (k + 1) := by
  simp only [lineStart, List.take_add_one, List.getElem?_eq_getElem h, Option.toList_some,
    List.map_append, List.sum_append, List.map_cons, List.map_nil, List.sum_cons, List.sum_nil]
  omega

theorem lineStart_lt {t : Text} {j k : Nat} (h : j < k) (hj : j < t.lines.length) :
    t.lineStart j < t.lineStart k :=
  Nat.lt_of_lt_of_le (lineStart_lt_succ hj) (lineStart_mono t h)

theorem lineStart_lt_length {t : Text} {k : Nat} (h : k < t.lines.length) :
    t.lineStart k < t.length := by
  induction t using line_induction generalizing k with
  | nil => simp at h
  | last l hne hl =>
      have hk : k = 0 := by simpa [lines_of_not_mem hne hl] using h
      simpa [hk] using List.length_pos_iff.mpr hne
  | more l r hl ih =>
      simp only [List.length_append, List.length_cons]
      cases k with
      | zero => rw [lineStart_zero]; omega
      | succ k =>
          have hk : k < r.lines.length := by simpa [lines_append_newline hl] using h
          have := ih hk
          rw [lineStart_append_newline hl]
          omega

theorem lineStart_le_iff {t : Text} {k o : Nat} (hk : k ≤ t.lines.length) (ho : o ≤ t.length) :
    t.lineStart k ≤ o ↔ k ≤ (t.take o).count '\n' := by
  induction t using line_induction generalizing k o with
  | nil => simp_all
  | last l hne hl =>
      have hc : (l.take o).count '\n' = 0 :=
        List.count_eq_zero.mpr fun m => hl (List.mem_of_mem_take m)
      cases k with
      | zero => simp
      | succ k =>
          rw [hc, lineStart_of_not_mem hne hl]
          omega
  | more l r hl ih =>
      cases k with
      | zero => simp
      | succ k =>
          rw [lines_append_newline hl, List.length_cons] at hk
          rw [lineStart_append_newline hl]
          by_cases hol : o ≤ l.length
          · have hc : ((l ++ '\n' :: r).take o).count '\n' = 0 := by
              rw [List.take_append_of_le_length hol]
              exact List.count_eq_zero.mpr fun m => hl (List.mem_of_mem_take m)
            omega
          · obtain ⟨d, rfl⟩ : ∃ d, o = l.length + 1 + d := ⟨o - (l.length + 1), by omega⟩
            have hc : ((l ++ '\n' :: r).take (l.length + 1 + d)).count '\n' =
                (r.take d).count '\n' + 1 := by
              rw [Nat.add_assoc, List.take_length_add_append, Nat.add_comm 1 d, List.take_succ_cons,
                List.count_append, List.count_cons_self, List.count_eq_zero.mpr hl, Nat.zero_add]
            have := ih (k := k) (o := d) (by omega) (by simp at ho; omega)
            omega

theorem lineStart_length (t : Text) :
    t.lineStart t.lines.length = t.length + if t = [] ∨ t.endsIn '\n' then 0 else 1 := by
  induction t using line_induction with
  | nil => simp
  | last l hne hl =>
      simp [lines_of_not_mem hne hl, lineStart_of_not_mem hne hl, hne, endsIn_newline_of_not_mem hl]
  | more l r hl ih =>
      rw [lines_append_newline hl, List.length_cons, lineStart_append_newline hl, ih]
      cases r with
      | nil => simp [endsIn]
      | cons c r => simp [endsIn_append_cons]; omega

theorem lineStart_le_length_succ {t : Text} {k : Nat} (h : k ≤ t.lines.length) :
    t.lineStart k ≤ t.length + 1 := by
  have hmono := lineStart_mono t h
  rw [lineStart_length] at hmono
  split at hmono
  · omega
  · exact hmono

theorem lineStart_count {t : Text} {o : Nat} (h : o < t.length) :
    (t.take o).count '\n' < t.lines.length ∧ t.lineStart ((t.take o).count '\n') ≤ o ∧
      o < t.lineStart ((t.take o).count '\n' + 1) := by
  have hlt : (t.take o).count '\n' < t.lines.length := by
    by_contra hle
    have := (lineStart_le_iff (Nat.le_refl _) (Nat.le_of_lt h)).mpr (Nat.not_lt.mp hle)
    have := lineStart_length t
    omega
  refine ⟨hlt, ?_, ?_⟩
  · exact (lineStart_le_iff (Nat.le_of_lt hlt) (Nat.le_of_lt h)).mpr (Nat.le_refl _)
  · by_contra hle
    have := (lineStart_le_iff hlt (Nat.le_of_lt h)).mp (Nat.not_lt.mp hle)
    omega

theorem lines_length_pos {t : Text} (h : t ≠ []) : 0 < t.lines.length :=
  Nat.zero_lt_of_lt (lineStart_count (List.length_pos_iff.mpr h)).1

theorem drop_lineStart_append_newline {l : Text} (h : '\n' ∉ l) (r : Text) (k : Nat) :
    (l ++ '\n' :: r).drop (lineStart (l ++ '\n' :: r) (k + 1)) = r.drop (r.lineStart k) := by
  rw [lineStart_append_newline h, Nat.add_assoc, List.drop_length_add_append, Nat.add_comm 1,
    List.drop_succ_cons]

theorem lines_drop_lineStart (t : Text) (k : Nat) :
    lines (t.drop (t.lineStart k)) = t.lines.drop k := by
  induction t using line_induction generalizing k with
  | nil => simp
  | last l hne hl =>
      cases k with
      | zero => simp
      | succ k =>
          rw [lineStart_of_not_mem hne hl, lines_of_not_mem hne hl, List.drop_of_length_le (by omega)]
          simp
  | more l r hl ih =>
      cases k with
      | zero => simp
      | succ k =>
          rw [drop_lineStart_append_newline hl, lines_append_newline hl, List.drop_succ_cons]
          exact ih k

theorem lineStart_drop (t : Text) (j k : Nat) :
    lineStart (t.drop (t.lineStart j)) k = t.lineStart (j + k) - t.lineStart j := by
  rw [lineStart, lines_drop_lineStart]
  simp [lineStart, List.take_add]

theorem joinLines_cons {l : Text} {rest : List Text} (h : rest ≠ []) :
    joinLines (l :: rest) = l ++ '\n' :: joinLines rest := by
  rw [joinLines, List.intercalate_cons_of_ne_nil h]
  simp [joinLines]

theorem joinLines_append {ls rs : List Text} (hl : ls ≠ []) (hr : rs ≠ []) :
    joinLines (ls ++ rs) = joinLines ls ++ '\n' :: joinLines rs := by
  induction ls with
  | nil => exact absurd rfl hl
  | cons l ls ih =>
      rw [List.cons_append, joinLines_cons (List.append_ne_nil_of_right_ne_nil ls hr)]
      by_cases h : ls = []
      · simp [h, joinLines]
      · rw [ih h, joinLines_cons h, List.append_assoc, List.cons_append]

theorem take_lineStart {t : Text} {k : Nat} (hk : k < t.lines.length) :
    t.take (t.lineStart (k + 1) - 1) = joinLines (t.lines.take (k + 1)) := by
  induction t using line_induction generalizing k with
  | nil => simp at hk
  | last l hne hl =>
      rw [lineStart_of_not_mem hne hl, lines_of_not_mem hne hl]
      simp [joinLines]
  | more l r hl ih =>
      rw [lineStart_append_newline hl, lines_append_newline hl, List.take_succ_cons]
      cases k with
      | zero => simp [joinLines]
      | succ k =>
          have hk : k < r.lines.length := by simpa [lines_append_newline hl] using hk
          have hpos : 0 < r.lineStart (k + 1) := lineStart_lt (Nat.succ_pos k) (Nat.zero_lt_of_lt hk)
          have hne : r.lines.take (k + 1) ≠ [] := by
            simpa using List.ne_nil_of_length_pos (Nat.zero_lt_of_lt hk)
          rw [joinLines_cons hne, ← ih hk,
            show l.length + 1 + r.lineStart (k + 1) - 1 = l.length + (r.lineStart (k + 1) - 1 + 1) by
              omega,
            List.take_length_add_append, List.take_succ_cons]

theorem take_drop_lineStart {t : Text} {j k : Nat} (h : j + k < t.lines.length) :
    (t.drop (t.lineStart j)).take (t.lineStart (j + k + 1) - 1 - t.lineStart j) =
      joinLines ((t.lines.drop j).take (k + 1)) := by
  have hk : k < (lines (t.drop (t.lineStart j))).length := by
    rw [lines_drop_lineStart, List.length_drop]
    omega
  have hs := take_lineStart hk
  rw [lines_drop_lineStart, lineStart_drop] at hs
  rw [← hs, Nat.sub_right_comm, Nat.add_assoc]

theorem mem_numberedLines_iff {t line : Text} {n : Nat} :
    (line, n + 1) ∈ t.numberedLines ↔ t.lines[n]? = some line := by
  rw [numberedLines, Nat.add_comm]
  exact List.mk_add_mem_zipIdx_iff_getElem?

theorem numbered_bounds {t line : Text} {n : Nat} (h : (line, n) ∈ t.numberedLines) :
    1 ≤ n ∧ n ≤ t.lines.length := by
  have := List.le_snd_of_mem_zipIdx h
  have := List.snd_lt_add_of_mem_zipIdx h
  omega

theorem numbered_unique {t line line' : Text} {n : Nat} (h : (line, n) ∈ t.numberedLines)
    (h' : (line', n) ∈ t.numberedLines) : line' = line := by
  obtain ⟨k, rfl⟩ := Nat.exists_eq_add_of_le' (numbered_bounds h).1
  rw [mem_numberedLines_iff] at h h'
  exact Option.some.inj (h'.symm.trans h)

theorem foldl_numberedLines_keeps {σ : Type} {step : σ → Text × Nat → σ} (Inv : Nat → σ → Prop)
    {s : σ} (t : Text) (init : Inv 0 s)
    (keep : ∀ n line s, (line, n + 1) ∈ t.numberedLines → Inv n s →
      Inv (n + 1) (step s (line, n + 1))) :
    Inv t.lines.length (t.numberedLines.foldl step s) := by
  rw [numberedLines, List.zipIdx_succ, List.foldl_map]
  apply foldl_zipIdx_keeps Inv t.lines init
  intro n line s hline hs
  exact keep n line s (mem_numberedLines_iff.mpr hline) hs

theorem numberedLines_append {s : Text} (hs : s.EndsLine) (t : Text) :
    (s ++ t).numberedLines =
      s.numberedLines ++ t.numberedLines.map (Prod.map id (· + s.lines.length)) := by
  rw [numberedLines, lines_append hs, List.zipIdx_append, numberedLines, numberedLines,
    List.map_snd_add_zipIdx_eq_zipIdx, Nat.add_comm s.lines.length]

theorem foldl_numberedLines_append {σ : Type} {step : σ → Text × Nat → σ} {init : σ} (move : σ → σ)
    {s : Text} (hs : s.EndsLine) (t : Text) (hend : s.numberedLines.foldl step init = move init)
    (hstep : ∀ x line n, step (move x) (line, n + s.lines.length) = move (step x (line, n))) :
    (s ++ t).numberedLines.foldl step init = move (t.numberedLines.foldl step init) := by
  rw [numberedLines_append hs, List.foldl_append, hend, List.foldl_map]
  exact List.foldl_hom move fun x numbered => hstep x numbered.1 numbered.2

theorem allBlank_append (s t : Text) : (s ++ t).allBlank = (s.allBlank && t.allBlank) := by
  simp [allBlank]

theorem allBlank_lines (t : Text) : t.lines.all allBlank = t.allBlank := by
  induction t using line_induction with
  | nil => rfl
  | last l hne hl => simp [lines_of_not_mem hne hl]
  | more l r hl ih =>
      have hn : isBlank '\n' = true := by decide
      rw [lines_append_newline hl, List.all_cons, ih, allBlank_append]
      simp [allBlank, hn]

theorem exists_visible_line {t : Text} (h : t.allBlank = false) :
    ∃ (i : Nat) (hi : i < t.lines.length), t.lines[i].allBlank = false := by
  rw [← allBlank_lines, List.all_eq_false] at h
  obtain ⟨line, hline, hvisible⟩ := h
  obtain ⟨i, hi, rfl⟩ := List.mem_iff_getElem.mp hline
  exact ⟨i, hi, by simpa using hvisible⟩

theorem allBlank_joinLines (ls : List Text) : (joinLines ls).allBlank = ls.all allBlank := by
  induction ls with
  | nil => rfl
  | cons l ls ih =>
      have hn : isBlank '\n' = true := by decide
      by_cases h : ls = []
      · simp [h, joinLines]
      · rw [joinLines_cons h, allBlank_append, List.all_cons, ← ih]
        simp [allBlank, hn]

end Text

end Chunkwise
