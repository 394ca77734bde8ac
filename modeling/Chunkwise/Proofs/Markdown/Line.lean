import Chunkwise.Markdown.Line
import Chunkwise.Proofs.Pattern
import Chunkwise.Proofs.Pattern.Longest
import Mathlib.Data.List.TakeWhile

namespace Chunkwise

namespace Markdown

open Pattern

variable {line : Text} {h : Heading}

theorem isHash_of_isBlank {c : Char} (h : isBlank c = true) : isHash c = false := by
  by_contra hhash
  obtain rfl : c = '#' := by simpa [isHash] using hhash
  exact absurd h (by decide)

theorem takeWhile_append_of_blank {signs rest : Text} {c : Char} (hsigns : ∀ d ∈ signs, isHash d = true)
    (hc : isBlank c = true) : (signs ++ c :: rest).takeWhile isHash = signs := by
  have hstop : ¬ isHash c = true := by
    rw [isHash_of_isBlank hc]
    exact Bool.false_ne_true
  rw [List.takeWhile_append_of_pos hsigns, List.takeWhile_cons_of_neg hstop, List.append_nil]

theorem exists_signs_of_passes {s e : Cursor}
    (h : Passes (group (seq (one isHash) (upTo isHash 5))) s e) :
    ∃ signs, s.Over signs e ∧ e.groups = signs :: s.groups ∧ signs ≠ [] ∧
      ∀ c ∈ signs, isHash c = true := by
  obtain ⟨m, signs, hsigns, hover, hover', hgroups⟩ := h.exists_group rfl
  refine ⟨signs, hover', hgroups, ?_, ?_⟩
  · cases hsigns with
    | seq hone hmore =>
        obtain ⟨c, hfirst, -⟩ := hone.exists_passed_one
        obtain ⟨more, hlater, -⟩ := hmore.exists_passed
        rw [hover.unique (hfirst.trans hlater)]
        exact List.cons_ne_nil c more
  · obtain ⟨passed, hpassed, hadmits⟩ := hsigns.exists_passed
    obtain rfl := hover.unique hpassed
    have htests : ∀ test ∈ (seq (one isHash) (upTo isHash 5)).tests, test = isHash := by
      simp [tests, upTo, opt]
    intro c hc
    obtain ⟨test, htest, htrue⟩ := hadmits c hc
    rwa [htests test htest] at htrue

theorem level_of_heading? (hline : heading? line = some h) :
    1 ≤ h.level ∧ h.level = (line.takeWhile isHash).length := by
  obtain ⟨m, hm, rfl⟩ := Option.map_eq_some_iff.mp hline
  have hpasses := (passes_of_matchAt hm).2
  rw [headingLine] at hpasses
  cases hpasses with
  | seq hstart hrest =>
      cases hstart
      cases hrest with
      | seq hsigns hrest =>
          cases hrest with
          | seq hblank hrest =>
              cases hrest with
              | seq htitle hend =>
                  obtain ⟨signs, hover, hgroups, hne, hall⟩ := exists_signs_of_passes hsigns
                  obtain ⟨blank, hover', hblankne, hblankall⟩ := hblank.exists_passed_plus
                  obtain ⟨c, blank, rfl⟩ := List.exists_cons_of_ne_nil hblankne
                  obtain ⟨-, title, -, -, -, htitles⟩ := htitle.exists_group rfl
                  have hfirst : m.firstGroup = signs := by
                    rw [Match.firstGroup, Match.group?, hend.groups_eq rfl, htitles,
                      hblank.groups_eq rfl, hgroups]
                    rfl
                  have hline : line = signs ++ c :: (blank ++ _) :=
                    hover.1.trans (congrArg (signs ++ ·) hover'.1)
                  rw [hfirst, hline, takeWhile_append_of_blank hall (hblankall c List.mem_cons_self)]
                  exact ⟨List.length_pos_iff.mpr hne, rfl⟩

def Marked (t : Text) : Prop :=
  "```".toList <+: t ∨ "~~~".toList <+: t

def IsFence (line : Text) : Prop :=
  Marked (line.dropWhile isBlank)

instance (line : Text) : Decidable (IsFence line) :=
  inferInstanceAs (Decidable (_ ∨ _))

def infoChars (line : Text) : Text :=
  (((line.dropWhile isBlank).drop 3).dropWhile isBlank).takeWhile isInfoChar

def infoWord (line : Text) : Option String :=
  if infoChars line = [] then none else some (String.ofList (infoChars line))

def behindMark : Pattern :=
  chain [anyBlanks, opt (group (plus isInfoChar)), anything, finish]

section Fences

variable {α : Type} {f : Cursor → α} {s : Cursor}

theorem run_anything (hn : '\n' ∉ s.rest) :
    (chain [anything, finish]).run (fun e => some (f e)) s = some (f (s.past s.rest)) := by
  have hall : s.rest.takeWhile notNewline = s.rest := by
    rw [List.takeWhile_eq_self_iff]
    intro c hc
    simp only [notNewline, bne_iff_ne]
    rintro rfl
    exact hn hc
  have hend : (s.past s.rest).rest = [] := List.drop_length
  have hfinish : (s.past s.rest).onFinish = true := by
    rw [Cursor.onFinish, hend]
    rfl
  apply run_star_of_some
  rw [hall]
  exact if_pos hfinish

theorem exists_run_info (f : Cursor → α) (hn : '\n' ∉ s.rest) :
    ∃ e, (chain [opt (group (plus isInfoChar)), anything, finish]).run (fun e => some (f e)) s =
        some (f e) ∧
      e.groups = if s.rest.takeWhile isInfoChar = [] then s.groups
        else s.rest.takeWhile isInfoChar :: s.groups := by
  by_cases hnil : s.rest.takeWhile isInfoChar = []
  · refine ⟨s.past s.rest, ?_, by rw [if_pos hnil]; rfl⟩
    exact (run_optGroup_of_nil hnil).trans (run_anything hn)
  · have hgroups := Cursor.groups_close_past (s.rest.takeWhile_prefix isInfoChar)
    refine ⟨_, run_optGroup_of_some hnil (run_anything ?_), ?_⟩
    · exact fun hmem => hn (List.mem_of_mem_drop hmem)
    · rw [if_neg hnil]
      exact hgroups

theorem exists_run_behindMark (f : Cursor → α) (hn : '\n' ∉ s.rest) :
    ∃ e, behindMark.run (fun e => some (f e)) s = some (f e) ∧
      e.groups = if (s.rest.dropWhile isBlank).takeWhile isInfoChar = [] then s.groups
        else (s.rest.dropWhile isBlank).takeWhile isInfoChar :: s.groups := by
  have hrest := s.rest_past_takeWhile isBlank
  obtain ⟨e, hrun, hgroups⟩ := exists_run_info (s := s.past (s.rest.takeWhile isBlank)) f
    (fun hmem => hn (List.mem_of_mem_drop hmem))
  rw [hrest] at hgroups
  exact ⟨e, run_star_of_some hrun, hgroups⟩

theorem not_marked_of_isBlank {c : Char} {rest : Text} (hc : isBlank c = true) :
    ¬ Marked (c :: rest) := by
  rintro (h | h)
  · obtain rfl := (List.cons_prefix_cons.mp h).1
    exact absurd hc (by decide)
  · obtain rfl := (List.cons_prefix_cons.mp h).1
    exact absurd hc (by decide)

theorem run_marks (accept : Cursor → Option α) (s : Cursor) :
    (literals ["```", "~~~"]).run accept s =
      match if "```".toList <+: s.rest then accept (s.past "```".toList) else none with
      | some r => some r
      | none => if "~~~".toList <+: s.rest then accept (s.past "~~~".toList) else none := by
  rw [← run_literal, ← run_literal]
  rfl

theorem run_marks_of_not {accept : Cursor → Option α} (h : ¬ Marked s.rest) :
    (literals ["```", "~~~"]).run accept s = none := by
  obtain ⟨hticks, htildes⟩ := not_or.mp h
  rw [run_marks, if_neg hticks, if_neg htildes]

theorem exists_run_marks {accept : Cursor → Option α} (h : Marked s.rest)
    (haccept : ∀ mark : Text, mark.length = 3 → ∃ r, accept (s.past mark) = some r) :
    ∃ mark : Text, mark.length = 3 ∧
      (literals ["```", "~~~"]).run accept s = accept (s.past mark) := by
  rw [run_marks]
  by_cases hticks : "```".toList <+: s.rest
  · obtain ⟨r, hr⟩ := haccept "```".toList rfl
    refine ⟨"```".toList, rfl, ?_⟩
    rw [if_pos hticks, hr]
  · refine ⟨"~~~".toList, rfl, ?_⟩
    rw [if_neg hticks, if_pos (h.resolve_left hticks)]

def behindBlanks (line : Text) : Cursor :=
  (Cursor.atStart line).past (line.takeWhile isBlank)

theorem rest_behindBlanks (line : Text) : (behindBlanks line).rest = line.dropWhile isBlank :=
  (Cursor.atStart line).rest_past_takeWhile isBlank

theorem matchStart_fenceLine (line : Text) :
    fenceLine.matchStart line =
      (literals ["```", "~~~"]).run (behindMark.run fun e => some ⟨Cursor.atStart line, e⟩)
        (behindBlanks line) := by
  apply run_star_of_blocked
  rintro e ⟨c, rest, hrest, hc⟩
  exact run_marks_of_not (hrest ▸ not_marked_of_isBlank hc)

theorem exists_run_past_mark (f : Cursor → α) (hn : '\n' ∉ line) {mark : Text} (hmark : mark.length = 3) :
    ∃ e, behindMark.run (fun e => some (f e)) ((behindBlanks line).past mark) = some (f e) ∧
      e.groups = if infoChars line = [] then [] else [infoChars line] := by
  have hpast : ((behindBlanks line).past mark).rest = (line.dropWhile isBlank).drop 3 := by
    rw [← rest_behindBlanks, ← hmark]
    rfl
  have hnewline : '\n' ∉ ((behindBlanks line).past mark).rest := by
    rw [hpast]
    exact fun hmem => hn ((List.dropWhile_sublist isBlank).mem (List.mem_of_mem_drop hmem))
  obtain ⟨e, hrun, hgroups⟩ := exists_run_behindMark f hnewline
  rw [hpast] at hgroups
  exact ⟨e, hrun, hgroups⟩

theorem fence?_eq (hn : '\n' ∉ line) :
    fence? line = if IsFence line then some ⟨infoWord line⟩ else none := by
  rw [fence?, matchStart_fenceLine]
  split
  · next hfence =>
      have hmarked : Marked (behindBlanks line).rest := by
        rw [rest_behindBlanks]
        exact hfence
      obtain ⟨mark, hmark, hrun⟩ := exists_run_marks hmarked fun mark hmark => by
        obtain ⟨e, he, -⟩ := exists_run_past_mark (Match.mk (Cursor.atStart line)) hn hmark
        exact ⟨_, he⟩
      obtain ⟨e, he, hgroups⟩ := exists_run_past_mark (Match.mk (Cursor.atStart line)) hn hmark
      rw [hrun, he]
      simp only [Option.map_some, Match.group?, hgroups, infoWord]
      split
      · rfl
      · rfl
  · next hfence =>
      have hunmarked : ¬ Marked (behindBlanks line).rest := by
        rw [rest_behindBlanks]
        exact hfence
      rw [run_marks_of_not hunmarked]
      rfl

end Fences

end Markdown

end Chunkwise
