import Chunkwise.Proofs.Markdown.Cover
import Chunkwise.Proofs.Markdown.Line
import Mathlib.Algebra.Ring.Parity

namespace Chunkwise

namespace Markdown

variable {t line : Text} {n i : Nat} {x : Section} {h : Heading}

def fencesAbove (t : Text) (n : Nat) : Nat :=
  (t.lines.take n).countP fun line => (fence? line).isSome

theorem fencesAbove_succ (hline : t.lines[n]? = some line) :
    fencesAbove t (n + 1) = fencesAbove t n + if (fence? line).isSome then 1 else 0 := by
  rw [fencesAbove, List.take_add_one, hline, List.countP_append, Option.toList_some,
    List.countP_singleton]
  rfl

theorem fencesAbove_succ_of_fence (hline : t.lines[n]? = some line) (hfence : (fence? line).isSome = true) :
    fencesAbove t (n + 1) = fencesAbove t n + 1 := by
  rw [fencesAbove_succ hline, if_pos hfence]

theorem fencesAbove_succ_of_none (hline : t.lines[n]? = some line) (hnone : fence? line = none) :
    fencesAbove t (n + 1) = fencesAbove t n := by
  rw [fencesAbove_succ hline, hnone]
  rfl

def headingAt? (t : Text) (n : Nat) : Option Heading :=
  t.lines[n]?.bind fun line =>
    if fence? line = none ∧ Even (fencesAbove t n) then heading? line else none

theorem headingAt?_eq_some : headingAt? t n = some h ↔
    ∃ line, t.lines[n]? = some line ∧ fence? line = none ∧ Even (fencesAbove t n) ∧
      heading? line = some h := by
  rw [headingAt?, Option.bind_eq_some_iff]
  simp only [Option.ite_none_right_eq_some, and_assoc]

theorem headingAt?_of_line (hline : t.lines[n]? = some line) : headingAt? t n =
    if fence? line = none ∧ Even (fencesAbove t n) then heading? line else none := by
  rw [headingAt?, hline]
  rfl

structure SectionHead where
  first : Nat
  level : Nat
  title : Option String

def Section.head (x : Section) : SectionHead :=
  ⟨x.span.first, x.level, x.title⟩

def startAt? (t : Text) (n : Nat) : Option SectionHead :=
  match headingAt? t n with
  | some h => some ⟨n + 1, h.level, some h.title⟩
  | none => if n = 0 then some ⟨1, 0, none⟩ else none

namespace SectionScan

variable {s : SectionScan}

def heads (s : SectionScan) : List SectionHead :=
  s.closed.toList.map Section.head

structure Reads (t : Text) (n : Nat) (s : SectionScan) : Prop where
  inFence : s.inFence = true ↔ Odd (fencesAbove t n)
  headings : s.headings = true ↔ ∃ i < n, (headingAt? t i).isSome = true
  current : s.current = none ↔ n = 0
  heads : s.heads = (List.range n).filterMap (startAt? t)

theorem reads_empty (t : Text) : Reads t 0 {} where
  inFence := by simp [fencesAbove]
  headings := by simp
  current := by simp
  heads := rfl

theorem heads_extend (s : SectionScan) (n : Nat) :
    (s.extend n).heads = s.heads ++ if s.current = none then [⟨n + 1, 0, none⟩] else [] := by
  simp only [heads, toList_closed, List.map_append, extend]
  cases s.current with
  | none => simp [Section.head, Span.line]
  | some current => simp [Section.head, Span.extendTo]

theorem filterMap_startAt_succ (t : Text) (n : Nat) :
    (List.range (n + 1)).filterMap (startAt? t) =
      (List.range n).filterMap (startAt? t) ++ (startAt? t n).toList := by
  rw [List.range_succ, List.filterMap_append]
  rfl

theorem Reads.extend (hs : s.Reads t n) (hnone : headingAt? t n = none) {inFence : Bool}
    (hfence : inFence = true ↔ Odd (fencesAbove t (n + 1))) :
    ({ s with inFence := inFence }.extend n).Reads t (n + 1) where
  inFence := hfence
  headings := by
    rw [Nat.exists_lt_succ_right, hnone]
    exact hs.headings.trans (or_iff_left Bool.false_ne_true).symm
  current := by
    refine iff_of_false ?_ (Nat.succ_ne_zero n)
    rw [SectionScan.extend]
    cases s.current with
    | none => exact Option.some_ne_none _
    | some current => exact Option.some_ne_none _
  heads := by
    have hstart : startAt? t n = if n = 0 then some ⟨1, 0, none⟩ else none := by
      rw [startAt?, hnone]
    rw [heads_extend, filterMap_startAt_succ, hstart]
    change s.heads ++ (if s.current = none then _ else _) = _
    rw [hs.heads]
    congr 1
    by_cases hn : n = 0
    · rw [if_pos (hs.current.mpr hn), if_pos hn, hn]
      rfl
    · rw [if_neg (fun hc => hn (hs.current.mp hc)), if_neg hn]
      rfl

theorem Reads.open (hs : s.Reads t n) (hh : headingAt? t n = some h)
    (hfence : s.inFence = true ↔ Odd (fencesAbove t (n + 1))) :
    Reads t (n + 1)
      { s with
        done := s.closed
        current := some ⟨Span.line n, h.level, some h.title⟩
        headings := true } where
  inFence := hfence
  headings := iff_of_true rfl ⟨n, Nat.lt_succ_self n, Option.isSome_of_eq_some hh⟩
  current := iff_of_false (Option.some_ne_none _) (Nat.succ_ne_zero n)
  heads := by
    rw [filterMap_startAt_succ, startAt?, hh, ← hs.heads, SectionScan.heads, toList_closed,
      List.map_append]
    rfl

theorem Reads.step (hs : s.Reads t n) (hline : t.lines[n]? = some line) :
    (s.step (line, n)).Reads t (n + 1) := by
  have hheading := headingAt?_of_line hline
  rw [SectionScan.step]
  by_cases hfence : (fence? line).isSome = true
  · have hne : ¬ (fence? line = none ∧ Even (fencesAbove t n)) := fun hboth => by
      rw [hboth.1] at hfence
      exact Bool.false_ne_true hfence
    rw [if_neg hne] at hheading
    rw [if_pos hfence]
    apply hs.extend hheading
    rw [fencesAbove_succ_of_fence hline hfence, Nat.odd_add_one, ← hs.inFence, Bool.not_eq_true,
      Bool.not_eq_true']
  · have hplain : fence? line = none := by simpa using hfence
    have hinside : s.inFence = true ↔ Odd (fencesAbove t (n + 1)) := by
      rw [fencesAbove_succ_of_none hline hplain]
      exact hs.inFence
    have houtside : (if s.inFence = true then none else heading? line) = headingAt? t n := by
      rw [hheading]
      by_cases hin : s.inFence = true
      · rw [if_pos hin, if_neg]
        exact fun hboth => Nat.not_even_iff_odd.mpr (hs.inFence.mp hin) hboth.2
      · rw [if_neg hin, if_pos]
        exact ⟨hplain, Nat.not_odd_iff_even.mp (hin ∘ hs.inFence.mpr)⟩
    rw [if_neg hfence]
    dsimp only
    rw [houtside]
    cases hh : headingAt? t n with
    | none => exact hs.extend hh hinside
    | some h => exact hs.open hh hinside

end SectionScan

theorem reads_sectionScan (t : Text) : (sectionScan t).Reads t t.lines.length :=
  foldl_zipIdx_keeps (SectionScan.Reads t) t.lines (SectionScan.reads_empty t)
    fun _ _ _ hline hs => hs.step hline

theorem map_head_sections (hne : sections t ≠ []) :
    (sections t).map Section.head = (List.range t.lines.length).filterMap (startAt? t) := by
  rw [sections] at hne ⊢
  split
  · exact (reads_sectionScan t).heads
  · next hnone => simp [hnone] at hne

theorem lt_of_headingAt? (hh : headingAt? t i = some h) : i < t.lines.length := by
  obtain ⟨line, hline, -⟩ := headingAt?_eq_some.mp hh
  exact (List.getElem?_eq_some_iff.mp hline).1

theorem startAt?_of_heading (hh : headingAt? t i = some h) :
    startAt? t i = some ⟨i + 1, h.level, some h.title⟩ := by
  rw [startAt?, hh]

theorem startAt?_eq_some {head : SectionHead} (hstart : startAt? t i = some head) :
    (∃ h, headingAt? t i = some h ∧ head = ⟨i + 1, h.level, some h.title⟩) ∨
      i = 0 ∧ headingAt? t 0 = none ∧ head = ⟨1, 0, none⟩ := by
  rw [startAt?] at hstart
  split at hstart
  · next h hh => exact .inl ⟨h, hh, (Option.some.inj hstart).symm⟩
  · next hnone =>
      split at hstart
      · next hi => exact .inr ⟨hi, hi ▸ hnone, (Option.some.inj hstart).symm⟩
      · cases hstart

theorem exists_section (hne : sections t ≠ []) (hh : headingAt? t i = some h) :
    ∃ x ∈ sections t, x.head = ⟨i + 1, h.level, some h.title⟩ := by
  rw [← List.mem_map, map_head_sections hne, List.mem_filterMap]
  exact ⟨i, List.mem_range.mpr (lt_of_headingAt? hh), startAt?_of_heading hh⟩

theorem head_cases (hx : x ∈ sections t) :
    (∃ h, headingAt? t (x.span.first - 1) = some h ∧ x.level = h.level ∧ x.title = some h.title) ∨
      x.span.first = 1 ∧ headingAt? t 0 = none ∧ x.level = 0 ∧ x.title = none := by
  have hmem : x.head ∈ (sections t).map Section.head := List.mem_map_of_mem hx
  rw [map_head_sections (List.ne_nil_of_mem hx), List.mem_filterMap] at hmem
  obtain ⟨i, -, hstart⟩ := hmem
  rcases startAt?_eq_some hstart with ⟨h, hh, hhead⟩ | ⟨-, hnone, hhead⟩
  · obtain ⟨hfirst, hlevel, htitle⟩ := SectionHead.mk.inj hhead
    rw [hfirst]
    exact .inl ⟨h, hh, hlevel, htitle⟩
  · obtain ⟨hfirst, hlevel, htitle⟩ := SectionHead.mk.inj hhead
    exact .inr ⟨hfirst, hnone, hlevel, htitle⟩

theorem sections_eq_nil_iff : sections t = [] ↔ ∀ i, headingAt? t i = none := by
  have hheadings := (reads_sectionScan t).headings
  constructor
  · intro hnil i
    cases hh : headingAt? t i with
    | none => rfl
    | some h =>
        rw [sections, if_pos (hheadings.mpr ⟨i, lt_of_headingAt? hh, Option.isSome_of_eq_some hh⟩)]
          at hnil
        have hheads := (reads_sectionScan t).heads
        rw [SectionScan.heads, hnil, eq_comm] at hheads
        have hnone := List.filterMap_eq_nil_iff.mp hheads i (List.mem_range.mpr (lt_of_headingAt? hh))
        rw [startAt?_of_heading hh] at hnone
        cases hnone
  · intro hnone
    rw [sections, if_neg]
    rw [hheadings]
    rintro ⟨i, -, hsome⟩
    rw [hnone i] at hsome
    cases hsome

def HeadingLine (t : Text) (i : Nat) (line : Text) : Prop :=
  t.lines[i]? = some line ∧ fence? line = none ∧ Even (fencesAbove t i) ∧ (heading? line).isSome = true

theorem HeadingLine.exists_heading (hline : HeadingLine t i line) :
    ∃ h, headingAt? t i = some h ∧ 1 ≤ h.level ∧ h.level = (line.takeWhile isHash).length := by
  obtain ⟨hline, hplain, houtside, hsome⟩ := hline
  obtain ⟨h, hh⟩ := Option.isSome_iff_exists.mp hsome
  exact ⟨h, headingAt?_eq_some.mpr ⟨line, hline, hplain, houtside, hh⟩, level_of_heading? hh⟩

theorem exists_headingLine (hh : headingAt? t i = some h) :
    ∃ line, HeadingLine t i line ∧ 1 ≤ h.level ∧ h.level = (line.takeWhile isHash).length := by
  obtain ⟨line, hline, hplain, houtside, hh⟩ := headingAt?_eq_some.mp hh
  exact ⟨line, ⟨hline, hplain, houtside, Option.isSome_of_eq_some hh⟩, level_of_heading? hh⟩

theorem headingAt?_eq_none_iff : headingAt? t i = none ↔ ¬ ∃ line, HeadingLine t i line := by
  constructor
  · rintro hnone ⟨line, hline⟩
    obtain ⟨h, hh, -⟩ := hline.exists_heading
    exact Option.some_ne_none h (hh.symm.trans hnone)
  · intro hnone
    cases hh : headingAt? t i with
    | none => rfl
    | some h =>
        obtain ⟨line, hline, -⟩ := exists_headingLine hh
        exact absurd ⟨line, hline⟩ hnone

structure Partition (t : Text) (xs : List Section) : Prop where
  tile : Span.Tile 0 (xs.map (·.span)) t.lines.length
  starts : ∀ i line, HeadingLine t i line →
    ∃ x ∈ xs, x.span.first = i + 1 ∧ 1 ≤ x.level ∧ x.level = (line.takeWhile isHash).length
  headed : ∀ x ∈ xs, 1 ≤ x.level → ∃ line, HeadingLine t (x.span.first - 1) line ∧
    x.level = (line.takeWhile isHash).length
  later : ∀ x ∈ xs.tail, 1 ≤ x.level
  first : ∀ x ∈ xs.head?, x.level = 0 ↔ ¬ ∃ line, HeadingLine t 0 line

theorem exists_section_of_headingLine (hne : sections t ≠ []) (hline : HeadingLine t i line) :
    ∃ x ∈ sections t, x.span.first = i + 1 ∧ 1 ≤ x.level ∧
      x.level = (line.takeWhile isHash).length := by
  obtain ⟨h, hh, hlevel⟩ := hline.exists_heading
  obtain ⟨x, hx, hhead⟩ := exists_section hne hh
  obtain ⟨hfirst, hlevel', -⟩ := SectionHead.mk.inj hhead
  rw [← hlevel'] at hlevel
  exact ⟨x, hx, hfirst, hlevel⟩

theorem exists_headingLine_of_level (hx : x ∈ sections t) (hlevel : 1 ≤ x.level) :
    ∃ line, HeadingLine t (x.span.first - 1) line ∧ x.level = (line.takeWhile isHash).length := by
  rcases head_cases hx with ⟨h, hh, hlevel', -⟩ | ⟨-, -, hzero, -⟩
  · obtain ⟨line, hline, -, hsigns⟩ := exists_headingLine hh
    exact ⟨line, hline, hlevel'.trans hsigns⟩
  · omega

theorem one_le_level_of_mem_tail (hx : x ∈ (sections t).tail) : 1 ≤ x.level := by
  have hmem := List.mem_of_mem_tail hx
  rcases head_cases hmem with ⟨h, hh, hlevel, -⟩ | ⟨hfirst, -⟩
  · obtain ⟨line, -, hone, -⟩ := exists_headingLine hh
    omega
  · obtain ⟨y, ys, hsections⟩ := List.exists_cons_of_ne_nil (List.ne_nil_of_mem hmem)
    have hpair := pairwise_sections t
    rw [hsections] at hx hpair
    have hbelow := List.rel_of_pairwise_cons hpair hx
    have := y.span.first_le_last
    have := y.span.one_le_first
    omega

theorem level_head_eq_zero_iff (hx : x ∈ (sections t).head?) :
    x.level = 0 ↔ ¬ ∃ line, HeadingLine t 0 line := by
  have hmem : x ∈ sections t := List.mem_of_mem_head? hx
  have hfirst : x.span.first = 1 := by
    obtain ⟨ys, hsections⟩ := List.head?_eq_some_iff.mp hx
    have htile := tile_sections (List.ne_nil_of_mem hmem)
    rw [hsections] at htile
    cases htile with
    | cons hfirst hrest => exact hfirst
  rw [← headingAt?_eq_none_iff]
  rcases head_cases hmem with ⟨h, hh, hlevel, -⟩ | ⟨-, hnone, hzero, -⟩
  · obtain ⟨line, -, hone, -⟩ := exists_headingLine hh
    rw [hfirst, Nat.sub_self] at hh
    rw [hh]
    exact iff_of_false (by omega) (Option.some_ne_none h)
  · exact iff_of_true hzero hnone

theorem sections_partition (t : Text) :
    (¬ ∃ i line, HeadingLine t i line) ∧ sections t = [] ∨
      (∃ i line, HeadingLine t i line) ∧ sections t ≠ [] ∧ Partition t (sections t) := by
  have hnil : sections t = [] ↔ ¬ ∃ i line, HeadingLine t i line := by
    rw [sections_eq_nil_iff, not_exists]
    simp only [headingAt?_eq_none_iff]
  by_cases hne : sections t = []
  · exact .inl ⟨hnil.mp hne, hne⟩
  · refine .inr ⟨not_not.mp fun h => hne (hnil.mpr h), hne, tile_sections hne, ?_, ?_, ?_, ?_⟩
    · intro i line hline
      exact exists_section_of_headingLine hne hline
    · intro x hx hlevel
      exact exists_headingLine_of_level hx hlevel
    · intro x hx
      exact one_le_level_of_mem_tail hx
    · intro x hx
      exact level_head_eq_zero_iff hx

end Markdown

end Chunkwise
