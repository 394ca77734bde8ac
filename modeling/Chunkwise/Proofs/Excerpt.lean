import Chunkwise.Declaration.Basic
import Chunkwise.Proofs.Text.LineIndex

namespace Chunkwise

open Text

structure Chunk.Excerpt (t : Text) (c : Chunk) (a b : Nat) : Prop where
  last_le : c.span.last ≤ t.lines.length
  start_le : t.lineStart (c.span.first - 1) ≤ a
  le : a ≤ b
  le_length : b ≤ t.length
  le_start : b ≤ t.lineStart c.span.last
  text_eq : c.text = Declaration.capped (b - a) (t.drop a)

theorem Declaration.capped_take {t : Text} {k n : Nat} (h : k ≤ n) :
    capped k (t.take n) = capped k t := by
  rw [capped, capped]
  split
  · rw [List.take_take, Nat.min_eq_left (by omega)]
  · rw [List.take_take, Nat.min_eq_left h]

section Window

variable {t : Text} {p n : Nat}

theorem count_take_add {o : Nat} (h : o ≤ ((t.drop p).take n).length) :
    (t.take (p + o)).count '\n' =
      (t.take p).count '\n' + (((t.drop p).take n).take o).count '\n' := by
  rw [List.length_take] at h
  rw [List.take_add, List.count_append, List.take_take, Nat.min_eq_left (by omega)]

theorem lines_window_le (h : (t.drop p).take n ≠ []) :
    (t.take p).count '\n' + (lines ((t.drop p).take n)).length ≤ t.lines.length := by
  have hpos := List.length_pos_iff.mpr h
  have hlen : ((t.drop p).take n).length ≤ t.length - p := by
    rw [List.length_take, List.length_drop]
    exact Nat.min_le_right _ _
  have hcount := count_take_add (t := t) (p := p) (n := n)
    (o := ((t.drop p).take n).length - 1) (Nat.sub_le _ _)
  have hlt := (lineStart_count (t := t) (o := p + (((t.drop p).take n).length - 1)) (by omega)).1
  generalize (t.drop p).take n = w at *
  have hlast : (lines w).length ≤ (w.take (w.length - 1)).count '\n' + 1 := by
    by_contra hgt
    have hstart := lineStart_lt_length (Nat.not_le.mp hgt)
    have := (lineStart_le_iff (Nat.le_of_lt (Nat.not_le.mp hgt)) (Nat.sub_le w.length 1)).mp
      (by omega)
    omega
  omega

theorem lineStart_window_le_iff {k o : Nat} (hk : k ≤ (lines ((t.drop p).take n)).length)
    (ho : o ≤ ((t.drop p).take n).length) (hne : (t.drop p).take n ≠ []) :
    t.lineStart ((t.take p).count '\n' + k) ≤ p + o ↔ lineStart ((t.drop p).take n) k ≤ o := by
  have hlines := lines_window_le hne
  have hlen : p + o ≤ t.length := by
    have := List.length_pos_iff.mpr hne
    rw [List.length_take, List.length_drop] at ho this
    omega
  rw [lineStart_le_iff (by omega) hlen, count_take_add ho, Nat.add_le_add_iff_left,
    lineStart_le_iff hk ho]

theorem Chunk.Excerpt.shift {c : Chunk} {a b : Nat} (h : Excerpt ((t.drop p).take n) c a b) :
    Excerpt t (c.shift ((t.take p).count '\n')) (p + a) (p + b) := by
  obtain ⟨hlast, hstart, hab, hlength, hstop, htext⟩ := h
  have h₁ := c.span.one_le_first
  have h₂ := c.span.first_le_last
  have hne : (t.drop p).take n ≠ [] := by
    intro hnil
    rw [hnil, lines_nil, List.length_nil] at hlast
    omega
  have hlines := lines_window_le hne
  have hlen : b ≤ n ∧ p + b ≤ t.length := by
    have := List.length_pos_iff.mpr hne
    rw [List.length_take, List.length_drop] at hlength this
    omega
  refine ⟨?_, ?_, Nat.add_le_add_left hab p, hlen.2, ?_, ?_⟩
  · change c.span.last + _ ≤ _
    omega
  · have hfirst : c.span.first + (t.take p).count '\n' - 1 =
        (t.take p).count '\n' + (c.span.first - 1) := by omega
    change t.lineStart (c.span.first + (t.take p).count '\n' - 1) ≤ p + a
    rw [hfirst, lineStart_window_le_iff (by omega) (by omega) hne]
    exact hstart
  · change p + b ≤ t.lineStart (c.span.last + (t.take p).count '\n')
    rw [Nat.add_comm c.span.last]
    cases b with
    | zero =>
        have hpos : lineStart ((t.drop p).take n) 0 < lineStart ((t.drop p).take n) c.span.last :=
          lineStart_lt (by omega) (by omega)
        rw [lineStart_zero] at hpos
        have := lineStart_window_le_iff hlast (Nat.zero_le _) hne
        omega
    | succ b =>
        have := lineStart_window_le_iff hlast (Nat.le_of_succ_le hlength) hne
        omega
  · rw [Nat.add_sub_add_left, ← List.drop_drop]
    change c.text = _
    rw [htext, List.drop_take, Declaration.capped_take (by omega)]

end Window

end Chunkwise
