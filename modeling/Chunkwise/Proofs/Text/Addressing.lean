import Chunkwise.Proofs.Text.LineIndex

namespace Chunkwise

namespace Text

theorem joinLines_lines (t : Text) :
    joinLines t.lines ++ (if t.endsIn '\n' then ['\n'] else []) = t := by
  induction t using line_induction with
  | nil => rfl
  | last l hne hl =>
      rw [lines_of_not_mem hne hl, endsIn_newline_of_not_mem hl]
      simp [joinLines]
  | more l r hl ih =>
      rw [lines_append_newline hl]
      cases r with
      | nil => simp [joinLines, endsIn]
      | cons c r =>
          have hne : lines (c :: r) ≠ [] :=
            List.ne_nil_of_length_pos (lines_length_pos (List.cons_ne_nil c r))
          rw [joinLines_cons hne, endsIn_append_cons, List.append_assoc, List.cons_append, ih]

theorem getElem?_lineEnd {t : Text} {k : Nat} (h : k < t.lines.length) :
    t[t.lineStart (k + 1) - 1]? = some '\n' ∨ t.lineStart (k + 1) - 1 = t.length := by
  induction t using line_induction generalizing k with
  | nil => cases h
  | last l hne hl =>
      rw [lineStart_of_not_mem hne hl]
      exact .inr rfl
  | more l r hl ih =>
      rw [lines_append_newline hl, List.length_cons] at h
      rw [lineStart_append_newline hl]
      cases k with
      | zero => exact .inl (by simp)
      | succ k =>
          have hk : k < r.lines.length := Nat.lt_of_succ_lt_succ h
          have hpos : 0 < r.lineStart (k + 1) := Nat.zero_lt_of_lt (lineStart_lt_succ hk)
          have hend : l.length + 1 + r.lineStart (k + 1) - 1 =
              l.length + (r.lineStart (k + 1) - 1 + 1) := by omega
          rw [hend, List.getElem?_append_right (Nat.le_add_right _ _), Nat.add_sub_cancel_left,
            List.getElem?_cons_succ, List.length_append, List.length_cons]
          rcases ih hk with hnewline | hlast
          · exact .inl hnewline
          · exact .inr (by rw [hlast])

theorem map_fst_numberedLines (t : Text) : t.numberedLines.map Prod.fst = t.lines :=
  List.zipIdx_map_fst 1 t.lines

theorem map_snd_numberedLines (t : Text) :
    t.numberedLines.map Prod.snd = List.range' 1 t.lines.length :=
  List.zipIdx_map_snd 1 t.lines

end Text

namespace LineIndex

open Text

theorem extract_clamp (ix : LineIndex) (first last : Int) :
    ix.extract first last = ix.extract (max 1 first) (min last ix.lineCount) := by
  simp [extract]

theorem extract_eq (t : Text) (first last : Int) :
    (ofText t).extract first last =
      if max first 1 ≤ min last t.lines.length then
        joinLines ((t.lines.take (min last t.lines.length).toNat).drop (max first 1 - 1).toNat)
      else [] := by
  rw [extract_clamp, lineCount_ofText, Int.max_comm 1 first]
  split
  · next h =>
      obtain ⟨j, hj⟩ := Int.eq_ofNat_of_zero_le (show 0 ≤ max first 1 - 1 by omega)
      obtain ⟨k, hk⟩ := Int.eq_ofNat_of_zero_le (Int.sub_nonneg_of_le h)
      have hfirst : max first 1 = ((j + 1 : Nat) : Int) := by omega
      have hlast : min last (t.lines.length : Int) = ((j + k + 1 : Nat) : Int) := by omega
      rw [hj, hlast, hfirst, extract_ofText (by omega), Int.toNat_natCast, Int.toNat_natCast,
        List.drop_take, show j + k + 1 - j = k + 1 by omega]
  · next h =>
      rw [extract, if_pos]
      rw [lineCount_ofText]
      omega

theorem line_views_agree (t : Text) :
    let shown := t.numberedLines.map Prod.fst
    t.numberedLines.map Prod.snd = List.range' 1 shown.length ∧
      (∀ line ∈ shown, '\n' ∉ line) ∧
      joinLines shown ++ (if t.endsIn '\n' then ['\n'] else []) = t ∧
      t.countLines = shown.length ∧
      (ofText t).lineCount = shown.length ∧
      ∀ first last : Int, (ofText t).extract first last =
        if max first 1 ≤ min last shown.length then
          joinLines ((shown.take (min last shown.length).toNat).drop (max first 1 - 1).toNat)
        else [] := by
  intro shown
  have hshown : shown = t.lines := map_fst_numberedLines t
  rw [hshown]
  refine ⟨map_snd_numberedLines t, ?_, joinLines_lines t, countLines_eq_length t,
    lineCount_ofText t, extract_eq t⟩
  intro line hline
  exact newline_not_mem_of_mem_lines hline

theorem lineOf_mono (t : Text) {a b : Int} (hab : a ≤ b) :
    (ofText t).lineOf a ≤ (ofText t).lineOf b := by
  by_contra h
  obtain ⟨hlt, hle⟩ := (lt_lineOf_iff (one_le_lineOf _ b)).mp (Nat.not_le.mp h)
  have hself := (lt_lineOf_iff (one_le_lineOf _ b)).mpr ⟨hlt, Int.le_trans hle hab⟩
  exact Nat.lt_irrefl _ hself

theorem lineOf_le (t : Text) (offset : Int) :
    (ofText t).lineOf offset ≤ max 1 (ofText t).lineCount := by
  rw [lineCount_ofText]
  by_contra h
  obtain ⟨hlt, -⟩ := (lt_lineOf_iff (by omega)).mp (Nat.not_le.mp h)
  omega

theorem offsetOf_mono (t : Text) {a b : Int} (hab : a ≤ b) :
    (ofText t).offsetOf a ≤ (ofText t).offsetOf b := by
  rw [offsetOf_eq, offsetOf_eq]
  have := lineStart_mono t (Int.toNat_le_toNat (Int.sub_le_sub_right hab 1))
  omega

theorem lineOf_offsetOf {t : Text} {k : Nat} (hk : k < t.lines.length) :
    (ofText t).lineOf ((ofText t).offsetOf (k + 1)) = k + 1 := by
  rw [offsetOf_ofText, Nat.min_eq_left (Nat.le_of_lt (lineStart_lt_length hk))]
  exact lineOf_eq hk (Int.le_refl _) (Int.ofNat_lt.mpr (lineStart_lt_succ hk))

theorem offsetOf_lineOf {t : Text} {offset : Nat} (h : offset < t.length) :
    (ofText t).offsetOf ((ofText t).lineOf offset) ≤ offset ∧
      offset < (ofText t).offsetOf ((ofText t).lineOf offset + 1) := by
  obtain ⟨-, hle, hnext⟩ := lineStart_count h
  have hhere := offsetOf_ofText t ((t.take offset).count '\n')
  have hbelow := offsetOf_ofText t ((t.take offset).count '\n' + 1)
  rw [lineOf_ofText h, Int.natCast_succ]
  rw [Int.natCast_succ] at hbelow
  omega

theorem lineEndOffset?_ofText {t : Text} {k : Nat} (hk : k < t.lines.length) :
    (ofText t).lineEndOffset? (k + 1) = some ((t.lineStart (k + 1) - 1 : Nat) : Int) := by
  have hindex : ((k : Int) + 1).toNat = k + 1 := Int.toNat_natCast (k + 1)
  rw [← lineEnd_ofText hk, lineEndOffset?, if_pos (by omega), lineEnd, hindex]
  cases h : (ofText t).starts[k + 1]? with
  | none => rfl
  | some s =>
      have hnext : k + 1 < t.lines.length := by
        by_contra hge
        rw [getElem?_starts_of_le (Nat.not_lt.mp hge)] at h
        cases h
      rw [getElem?_starts_of_lt hnext] at h
      cases h
      have hpos : 0 < t.lineStart (k + 1) := Nat.zero_lt_of_lt (lineStart_lt_succ hk)
      exact congrArg some (Int.ofNat_sub hpos).symm

theorem newline_not_mem_line {t : Text} {k : Nat} (hk : k < t.lines.length) :
    '\n' ∉ t.slice (t.lineStart k) (t.lineStart (k + 1) - 1) := by
  have hline : t.slice (t.lineStart k) (t.lineStart (k + 1) - 1) =
      joinLines ((t.lines.drop k).take 1) := take_drop_lineStart (k := 0) hk
  rw [hline, List.drop_eq_getElem_cons hk, List.take_succ_cons, List.take_zero]
  simpa [joinLines] using newline_not_mem_of_mem_lines (List.getElem_mem hk)

theorem lookups_inverse (t : Text) :
    let ix := ofText t
    (∀ offset : Nat, offset < t.length →
      ix.lineOf offset = (t.take offset).count '\n' + 1 ∧
      ix.offsetOf (ix.lineOf offset) ≤ offset ∧ offset < ix.offsetOf (ix.lineOf offset + 1)) ∧
    (∀ line : Nat, 1 ≤ line → line ≤ ix.lineCount →
      ix.lineOf (ix.offsetOf line) = line ∧
      ∃ stop : Nat, ix.lineEndOffset? line = some (stop : Int) ∧ ix.offsetOf line ≤ stop ∧
        '\n' ∉ t.slice (ix.offsetOf line) stop ∧ (t[stop]? = some '\n' ∨ stop = t.length)) ∧
    (∀ a b : Int, a ≤ b → ix.lineOf a ≤ ix.lineOf b ∧ ix.offsetOf a ≤ ix.offsetOf b) ∧
    ∀ offset : Int, 1 ≤ ix.lineOf offset ∧ ix.lineOf offset ≤ max 1 ix.lineCount := by
  intro ix
  refine ⟨fun offset h => ⟨lineOf_ofText h, offsetOf_lineOf h⟩, ?_,
    fun a b hab => ⟨lineOf_mono t hab, offsetOf_mono t hab⟩,
    fun offset => ⟨one_le_lineOf ix offset, lineOf_le t offset⟩⟩
  intro line hfirst hlast
  obtain ⟨k, rfl⟩ := Nat.exists_eq_add_of_le' hfirst
  have hk : k < t.lines.length := by
    rw [lineCount_ofText] at hlast
    exact hlast
  have hstart : ix.offsetOf ((k + 1 : Nat) : Int) = t.lineStart k := by
    rw [Int.natCast_succ, offsetOf_ofText, Nat.min_eq_left (Nat.le_of_lt (lineStart_lt_length hk))]
  refine ⟨lineOf_offsetOf hk, t.lineStart (k + 1) - 1, lineEndOffset?_ofText hk, ?_, ?_,
    getElem?_lineEnd hk⟩
  · rw [hstart]
    exact Nat.le_sub_one_of_lt (lineStart_lt_succ hk)
  · rw [hstart]
    exact newline_not_mem_line hk

theorem lookups_inverse_emptyLine :
    let t : Text := "alpha\nbeta\n\ngamma\n".toList
    11 < t.length ∧ (ofText t).lineOf (11 : Nat) = 3 ∧ (ofText t).offsetOf (3 : Nat) ≤ 11 ∧
      1 ≤ 3 ∧ 3 ≤ (ofText t).lineCount ∧ (ofText t).lineOf ((ofText t).offsetOf (3 : Nat)) = 3 ∧
      ∃ stop : Nat, (ofText t).lineEndOffset? (3 : Nat) = some (stop : Int) ∧
        (t[stop]? = some '\n' ∨ stop = t.length) := by
  intro t
  obtain ⟨hoffsets, hlines, -⟩ := lookups_inverse t
  have hoffset : 11 < t.length := by decide
  have hline : (t.take 11).count '\n' + 1 = 3 := by decide
  have hlast : 3 ≤ (ofText t).lineCount := by
    rw [lineCount_ofText]
    decide
  obtain ⟨hof, hstart, -⟩ := hoffsets 11 hoffset
  obtain ⟨hback, stop, hend, -, -, hstop⟩ := hlines 3 (by decide) hlast
  rw [hline] at hof
  rw [hof] at hstart
  exact ⟨hoffset, hof, hstart, by decide, hlast, hback, stop, hend, hstop⟩

end LineIndex

end Chunkwise
