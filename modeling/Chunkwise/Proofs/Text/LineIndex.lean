import Chunkwise.Proofs.Text.Lines
import Chunkwise.Text.LineIndex

namespace Chunkwise

namespace LineIndex

open Text

def startOf (t : Text) (above : Nat) : LineStart :=
  ⟨t.lineStart above, t.drop (t.lineStart above)⟩

theorem startsFrom_append {l : Text} (h : '\n' ∉ l) (found : Array LineStart) (offset : Nat)
    (r : Text) : startsFrom found offset (l ++ r) = startsFrom found (offset + l.length) r := by
  induction l generalizing offset with
  | nil => rfl
  | cons c l ih =>
      have hc : c ≠ '\n' := fun e => h (by simp [e])
      rw [List.cons_append, startsFrom]
      simp only [hc, decide_false, Bool.false_and, Bool.false_eq_true, if_false]
      rw [ih fun m => h (List.mem_cons_of_mem _ m), List.length_cons]
      congr 1
      omega

theorem startsFrom_eq (found : Array LineStart) (offset : Nat) (t : Text) :
    startsFrom found offset t = found ++ ((List.range (t.lines.length - 1)).map fun k =>
      LineStart.mk (offset + t.lineStart (k + 1)) (t.drop (t.lineStart (k + 1)))) := by
  induction t using line_induction generalizing found offset with
  | nil => simp [startsFrom]
  | last l hne hl =>
      rw [← List.append_nil l, startsFrom_append hl]
      simp [startsFrom, lines_of_not_mem hne hl]
  | more l r hl ih =>
      rw [startsFrom_append hl, startsFrom]
      cases r with
      | nil => simp [startsFrom, lines_append_newline hl]
      | cons c r =>
          obtain ⟨n, hn⟩ := Nat.exists_eq_add_of_lt (lines_length_pos (List.cons_ne_nil c r))
          simp only [decide_true, List.isEmpty_cons, Bool.not_false, Bool.and_self, if_true]
          rw [ih, lines_append_newline hl, List.length_cons, Nat.add_sub_cancel, hn, Nat.zero_add,
            Nat.add_sub_cancel, List.range_succ_eq_map, List.map_cons, List.map_map]
          simp only [Function.comp_def, Nat.succ_eq_add_one, drop_lineStart_append_newline hl]
          simp [lineStart_append_newline hl, Nat.add_assoc]

theorem starts_ofText (t : Text) :
    (ofText t).starts = ((List.range t.lines.length).map (startOf t)).toArray := by
  cases t with
  | nil => rfl
  | cons c r =>
      obtain ⟨n, hn⟩ := Nat.exists_eq_add_of_lt (lines_length_pos (List.cons_ne_nil c r))
      simp only [ofText, List.isEmpty_cons, Bool.false_eq_true, if_false]
      rw [startsFrom_eq, hn, Nat.zero_add, Nat.add_sub_cancel, List.range_succ_eq_map]
      simp [startOf, Function.comp_def]

theorem getElem?_starts (t : Text) (k : Nat) :
    (ofText t).starts[k]? = if k < t.lines.length then some (startOf t k) else none := by
  rw [starts_ofText, List.getElem?_toArray, List.getElem?_map]
  split <;> simp_all

@[simp] theorem lineCount_ofText (t : Text) : (ofText t).lineCount = t.lines.length := by
  simp [lineCount, starts_ofText]

theorem getElem?_starts_of_lt {t : Text} {k : Nat} (h : k < t.lines.length) :
    (ofText t).starts[k]? = some (startOf t k) := by
  rw [getElem?_starts, if_pos h]

theorem getElem?_starts_of_le {t : Text} {k : Nat} (h : t.lines.length ≤ k) :
    (ofText t).starts[k]? = none := by
  rw [getElem?_starts, if_neg (Nat.not_lt.mpr h)]

theorem restFrom_ofText {t : Text} {k : Nat} (h : k < t.lines.length) :
    (ofText t).restFrom (k + 1) = t.drop (t.lineStart k) := by
  simp [restFrom, getElem?_starts_of_lt h, startOf]

theorem length_le_lineStart {t : Text} {k : Nat} (h : t.lines.length ≤ k) :
    t.length ≤ t.lineStart k := by
  have := lineStart_mono t h
  have := lineStart_length t
  omega

theorem offsetOf_eq (t : Text) (line : Int) :
    (ofText t).offsetOf line = min (t.lineStart (line - 1).toNat) t.length := by
  rw [offsetOf]
  by_cases hline : line < 1
  · rw [if_pos hline, Int.toNat_of_nonpos (by omega), lineStart_zero, Nat.zero_min]
  · rw [if_neg hline]
    by_cases h : (line - 1).toNat < t.lines.length
    · rw [getElem?_starts_of_lt h, Nat.min_eq_left (Nat.le_of_lt (lineStart_lt_length h))]
      rfl
    · rw [getElem?_starts_of_le (Nat.not_lt.mp h),
        Nat.min_eq_right (length_le_lineStart (Nat.not_lt.mp h))]
      rfl

theorem offsetOf_ofText (t : Text) (k : Nat) :
    (ofText t).offsetOf (k + 1) = min (t.lineStart k) t.length := by
  rw [offsetOf_eq, Int.add_sub_cancel, Int.toNat_natCast]

theorem lineEnd_ofText {t : Text} {k : Nat} (h : k < t.lines.length) :
    (ofText t).lineEnd (k + 1) = t.lineStart (k + 1) - 1 := by
  rw [lineEnd]
  by_cases hk : k + 1 < t.lines.length
  · rw [getElem?_starts_of_lt hk]
    rfl
  · have hlast : k + 1 = t.lines.length := by omega
    have hne : t ≠ [] := fun e => by simp [e] at h
    have hlen := List.length_pos_iff.mpr hne
    rw [getElem?_starts_of_le (by omega), hlast, lineStart_length]
    simp only [ofText, hne, false_or]
    split <;> omega

theorem extract_ofText {t : Text} {j k : Nat} (h : j + k < t.lines.length) :
    (ofText t).extract (j + 1 : Nat) (j + k + 1 : Nat) =
      joinLines ((t.lines.drop j).take (k + 1)) := by
  have hstart := lineStart_lt_length (t := t) (k := j) (by omega)
  have h₁ : max 1 ((j + 1 : Nat) : Int) = ((j + 1 : Nat) : Int) := by omega
  have h₂ : min ((j + k + 1 : Nat) : Int) (ofText t).lineCount = ((j + k + 1 : Nat) : Int) := by
    rw [lineCount_ofText]
    omega
  have h₃ : ¬ ((j + k + 1 : Nat) : Int) < ((j + 1 : Nat) : Int) := by omega
  simp only [extract, h₁, h₂, h₃, if_false, Int.toNat_natCast]
  rw [restFrom_ofText (by omega), lineEnd_ofText h, Int.natCast_succ, offsetOf_ofText,
    Nat.min_eq_left (by omega), take_drop_lineStart h]

theorem searchLine_spec (t : Text) (offset : Int) (lo hi : Nat) (hhi : hi ≤ t.lines.length)
    (hlo : ∀ k < lo, (t.lineStart k : Int) ≤ offset)
    (habove : ∀ k, hi ≤ k → k < t.lines.length → offset < t.lineStart k) (hle : lo ≤ hi) :
    (ofText t).searchLine offset lo hi ≤ t.lines.length ∧
      (∀ k < (ofText t).searchLine offset lo hi, (t.lineStart k : Int) ≤ offset) ∧
      ∀ k, (ofText t).searchLine offset lo hi ≤ k → k < t.lines.length → offset < t.lineStart k := by
  fun_induction searchLine (ofText t) offset lo hi with
  | case1 lo hi h hnone =>
      rw [getElem?_starts_of_lt (by omega)] at hnone
      cases hnone
  | case2 lo hi h s hs hlt ih =>
      rw [getElem?_starts_of_lt (by omega), Option.some.injEq] at hs
      subst hs
      refine ih (by omega) hlo (fun k hk hk' => ?_) (by omega)
      have := lineStart_mono t hk
      simp only [startOf] at hlt
      omega
  | case3 lo hi h s hs hlt ih =>
      rw [getElem?_starts_of_lt (by omega), Option.some.injEq] at hs
      subst hs
      refine ih hhi (fun k hk => ?_) habove (by omega)
      have := lineStart_mono t (show k ≤ (lo + hi) / 2 by omega)
      simp only [startOf] at hlt
      omega
  | case4 lo hi h =>
      exact ⟨by omega, hlo, fun k hk => habove k (by omega)⟩

theorem one_le_lineOf (ix : LineIndex) (offset : Int) : 1 ≤ ix.lineOf offset :=
  Nat.le_max_left _ _

theorem lt_lineOf_iff {t : Text} {offset : Int} {k : Nat} (hk : 0 < k) :
    k < (ofText t).lineOf offset ↔ k < t.lines.length ∧ (t.lineStart k : Int) ≤ offset := by
  obtain ⟨hsize, hbelow, habove⟩ := searchLine_spec t offset 0 t.lines.length (Nat.le_refl _)
    (fun k h => absurd h (Nat.not_lt_zero k)) (fun k h h' => absurd h' (Nat.not_lt.mpr h))
    (Nat.zero_le _)
  have hstarts : (ofText t).starts.size = t.lines.length := lineCount_ofText t
  have hlineOf : k < (ofText t).lineOf offset ↔
      k < (ofText t).searchLine offset 0 t.lines.length := by
    rw [lineOf, hstarts]
    omega
  rw [hlineOf]
  constructor
  · intro h
    exact ⟨Nat.lt_of_lt_of_le h hsize, hbelow k h⟩
  · rintro ⟨hlt, hle⟩
    by_contra h
    exact absurd (habove k (Nat.not_lt.mp h) hlt) (Int.not_lt.mpr hle)

theorem lineOf_eq {t : Text} {offset : Int} {k : Nat} (hk : k < t.lines.length)
    (hstart : (t.lineStart k : Int) ≤ offset) (hnext : offset < t.lineStart (k + 1)) :
    (ofText t).lineOf offset = k + 1 := by
  apply Nat.le_antisymm
  · by_contra h
    have := ((lt_lineOf_iff (show 0 < k + 1 by omega)).mp (Nat.not_le.mp h)).2
    omega
  · rcases Nat.eq_zero_or_pos k with rfl | hpos
    · exact one_le_lineOf _ _
    · exact (lt_lineOf_iff hpos).mpr ⟨hk, hstart⟩

theorem lineOf_ofText {t : Text} {o : Nat} (h : o < t.length) :
    (ofText t).lineOf o = (t.take o).count '\n' + 1 := by
  obtain ⟨hlt, hle, hnext⟩ := lineStart_count h
  exact lineOf_eq hlt (Int.ofNat_le.mpr hle) (Int.ofNat_lt.mpr hnext)

end LineIndex

end Chunkwise
