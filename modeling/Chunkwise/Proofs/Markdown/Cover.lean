import Chunkwise.Proofs.Markdown

namespace Chunkwise

namespace Markdown

variable {t : Text} {o : Options} {x y : Section} {m least : Int} {part chunks : List Chunk} {i : Nat}

structure Section.CutInto (x : Section) (m : Int) (part : List Chunk) : Prop where
  kind : ∀ c ∈ part, c.kind = .markdownHeading
  pairwise : part.Pairwise fun c d => c.span.last < d.span.first
  size_le : ∀ c ∈ part, (c.span.size : Int) ≤ m
  within : ∀ c ∈ part, c.span.Within x.span

theorem cutInto_of_cutSection (hmax : 1 ≤ m)
    (h : cutSection (LineIndex.ofText t) m least x = .ok part) : x.CutInto m part := by
  rw [cutSection_eq] at h
  split at h
  · obtain ⟨pieces, hpieces, hcut⟩ := Span.exists_pieces x.span hmax
    rw [hpieces] at h
    cases h
    constructor
    · intro c hc
      obtain ⟨p, -, rfl⟩ := List.mem_map.mp hc
      rfl
    · exact List.pairwise_map.mpr hcut.pairwise
    · intro c hc
      obtain ⟨p, hp, rfl⟩ := List.mem_map.mp hc
      have := hcut.size_le hp
      simp only [sectionChunk]
      omega
    · intro c hc
      obtain ⟨p, hp, rfl⟩ := List.mem_map.mp hc
      exact ⟨hcut.first_le hp, hcut.last_le hp⟩
  · cases h
    exact ⟨by simp, .nil, by simp, by simp⟩

theorem exists_mem_of_cutSection (hmax : 1 ≤ m) (hwide : m < 2 ^ 53)
    (h : cutSection (LineIndex.ofText t) m least x = .ok part) (hkept : x.Kept t least)
    (hi : i ∈ x.span) : ∃ c ∈ part, i ∈ c.span := by
  rw [cutSection_eq, if_pos hkept] at h
  obtain ⟨pieces, hpieces, rfl⟩ := map_eq_ok h
  obtain ⟨p, hp, hmem⟩ := Span.exists_mem_pieces hmax
    (lt_shiftLeft_of_lt_pow x.span.size_pos hwide) hpieces hi
  exact ⟨_, List.mem_map_of_mem hp, hmem⟩

theorem kept_of_visible (hx : x ∈ sections t) (hlong : least ≤ x.span.size)
    (hi : i < t.lines.length) (hvisible : t.lines[i].allBlank = false) (hmem : i + 1 ∈ x.span) :
    x.Kept t least := by
  refine ⟨hlong, ?_⟩
  obtain ⟨hfirst, hlast⟩ := hmem
  rw [LineIndex.extract_span (last_le_of_mem_sections hx), Text.quote, Text.allBlank_joinLines,
    List.all_eq_false]
  refine ⟨t.lines[i], ?_, by simp [hvisible]⟩
  rw [List.mem_iff_getElem?]
  refine ⟨i - (x.span.first - 1), ?_⟩
  have := x.span.one_le_first
  rw [List.getElem?_take_of_lt (by rw [Span.size]; omega), List.getElem?_drop,
    Nat.add_sub_cancel' (by omega), List.getElem?_eq_getElem hi]

theorem pairwise_sections (t : Text) :
    (sections t).Pairwise fun x y => x.span.last < y.span.first := by
  by_cases hnil : sections t = []
  · rw [hnil]
    exact .nil
  · exact List.pairwise_map.mp (tile_sections hnil).pairwise

theorem eq_of_within {s : Span} (hx : x ∈ sections t) (hy : y ∈ sections t) (hsx : s.Within x.span)
    (hsy : s.Within y.span) : y = x := by
  obtain ⟨hfirst, hlast⟩ := hsx
  obtain ⟨hfirst', hlast'⟩ := hsy
  have hs := s.first_le_last
  have hpair := List.pairwise_iff_getElem.mp (pairwise_sections t)
  obtain ⟨i, hi, rfl⟩ := List.mem_iff_getElem.mp hx
  obtain ⟨j, hj, rfl⟩ := List.mem_iff_getElem.mp hy
  rcases Nat.lt_trichotomy i j with hlt | rfl | hgt
  · have := hpair i j hi hj hlt
    omega
  · rfl
  · have := hpair j i hj hi hgt
    omega

structure HeadingCover (t : Text) (m least : Int) (chunks : List Chunk) : Prop where
  kind : ∀ c ∈ chunks, c.kind = .markdownHeading
  pairwise : chunks.Pairwise fun c d => c.span.last < d.span.first
  size_le : ∀ c ∈ chunks, (c.span.size : Int) ≤ m
  in_section : ∀ c ∈ chunks, ∃! x, x ∈ sections t ∧ c.span.Within x.span
  covers : ∀ i (hi : i < t.lines.length), t.lines[i].allBlank = false →
    (∃ c ∈ chunks, i + 1 ∈ c.span) ∨
      ∃ x ∈ sections t, i + 1 ∈ x.span ∧ (x.span.size : Int) < least

theorem pairwise_sectionChunks (hmax : 1 ≤ m) (h : sectionChunks t m least = .ok chunks) :
    chunks.Pairwise fun c d => c.span.last < d.span.first := by
  obtain ⟨parts, hparts, rfl⟩ := map_eq_ok h
  have hall := mapM_eq_ok_iff.mp hparts
  apply List.pairwise_flatten.mpr
  constructor
  · intro part hpart
    obtain ⟨x, -, hcut⟩ := (mem_mapM_iff hparts).mp hpart
    exact (cutInto_of_cutSection hmax hcut).pairwise
  · apply pairwise_of_forall₂ hall (pairwise_sections t)
    intro x y p q hp hq hxy c hc d hd
    have hc := ((cutInto_of_cutSection hmax hp).within c hc).2
    have hd := ((cutInto_of_cutSection hmax hq).within d hd).1
    omega

theorem headingCover_sectionChunks (hmax : 1 ≤ m) (hwide : m < 2 ^ 53)
    (h : sectionChunks t m least = .ok chunks) (hne : chunks ≠ []) :
    HeadingCover t m least chunks := by
  have hmem : ∀ c ∈ chunks, ∃ x ∈ sections t, ∃ part, x.CutInto m part ∧ c ∈ part := by
    intro c hc
    obtain ⟨x, hx, part, hcut, hpart⟩ := (mem_flatten_mapM_iff h).mp hc
    exact ⟨x, hx, part, cutInto_of_cutSection hmax hcut, hpart⟩
  constructor
  · intro c hc
    obtain ⟨x, -, part, hcut, hpart⟩ := hmem c hc
    exact hcut.kind c hpart
  · exact pairwise_sectionChunks hmax h
  · intro c hc
    obtain ⟨x, -, part, hcut, hpart⟩ := hmem c hc
    exact hcut.size_le c hpart
  · intro c hc
    obtain ⟨x, hx, part, hcut, hpart⟩ := hmem c hc
    have hwithin := hcut.within c hpart
    refine ⟨x, ⟨hx, hwithin⟩, ?_⟩
    rintro y ⟨hy, hwithin'⟩
    exact eq_of_within hx hy hwithin hwithin'
  · intro i hi hvisible
    -- some chunk was made of a section, so there are sections, and they hold every line
    have hsections : sections t ≠ [] := by
      obtain ⟨c, hc⟩ := List.exists_mem_of_ne_nil chunks hne
      obtain ⟨x, hx, -⟩ := hmem c hc
      exact List.ne_nil_of_mem hx
    obtain ⟨s, hs, hline⟩ := (tile_sections hsections).exists_mem (Nat.succ_pos i) hi
    obtain ⟨x, hx, rfl⟩ := List.mem_map.mp hs
    by_cases hlong : least ≤ x.span.size
    · have hkept := kept_of_visible hx hlong hi hvisible hline
      obtain ⟨part, hcut⟩ := exists_cutSection t least x hmax
      obtain ⟨c, hc, hmem⟩ := exists_mem_of_cutSection hmax hwide hcut hkept hline
      exact .inl ⟨c, (mem_flatten_mapM_iff h).mpr ⟨x, hx, part, hcut, hc⟩, hmem⟩
    · exact .inr ⟨x, hx, hline, Int.not_le.mp hlong⟩

structure WindowCover (t : Text) (m overlap : Int) (chunks : List Chunk) : Prop where
  windows : LineChunks.ofText t m overlap = .ok chunks
  kind : ∀ c ∈ chunks, c.kind = .lineBased
  covers : ∀ i (hi : i < t.lines.length), t.lines[i].allBlank = false → ∃ c ∈ chunks, i + 1 ∈ c.span

theorem windowCover_ofText {overlap : Int} (h : LineChunks.ofText t m overlap = .ok chunks) :
    WindowCover t m overlap chunks := by
  obtain ⟨s, -, hcut⟩ := map_eq_ok h
  rw [LineChunks.cut_eq_read] at hcut
  subst hcut
  constructor
  · exact h
  · intro c hc
    exact LineChunks.kind_of_mem_read hc
  · intro i hi hvisible
    exact LineChunks.exists_mem_read_of_visible s hi hvisible

theorem chunk_covers (t : Text) (o : Options) (hmax : 1 ≤ maxLines o) (hwide : maxLines o < 2 ^ 53)
    (hoverlap : 0 ≤ overlap o ∧ overlap o < maxLines o) :
    ∃ cover, chunk t o =
        .ok (if o.includeCodeBlocks.getD true then cover ++ codeBlocks t else cover) ∧
      (∀ c ∈ codeBlocks t, c.kind = .codeBlock) ∧
      (cover ≠ [] ∧ HeadingCover t (maxLines o) (minLines o) cover ∨
        WindowCover t (maxLines o) (overlap o) cover) ∧
      (t.allBlank = false → cover ≠ []) := by
  obtain ⟨found, hfound⟩ := exists_headingChunks t hmax
  have hcover := coverChunks_eq t o
  rw [hfound] at hcover
  have hblocks : ∀ c ∈ codeBlocks t, c.kind = .codeBlock := by
    intro c hc
    exact (isCodeBlock_of_mem_codeBlocks hc).kind
  cases found with
  | nil =>
      obtain ⟨cover, hwindows⟩ := LineChunks.exists_ofText t hmax hoverlap
      have hcovers := windowCover_ofText hwindows
      refine ⟨cover, ?_, hblocks, .inr hcovers, ?_⟩
      · rw [chunk, hcover.trans hwindows]
        rfl
      · intro hvisible
        obtain ⟨i, hi, hline⟩ := Text.exists_visible_line hvisible
        obtain ⟨c, hc, -⟩ := hcovers.covers i hi hline
        exact List.ne_nil_of_mem hc
  | cons c cs =>
      have hne : c :: cs ≠ [] := List.cons_ne_nil c cs
      refine ⟨c :: cs, ?_, hblocks, .inl ⟨hne, ?_⟩, fun _ => hne⟩
      · rw [chunk, hcover]
        rfl
      · split at hfound
        · exact headingCover_sectionChunks hmax hwide hfound hne
        · cases hfound

def shortTail : Text := "# A\n\nx\n# B\n".toList

def narrow : Options := { maxLines := some 2, minLines := some 2 }

theorem chunk_covers_shortTail :
    1 ≤ maxLines narrow ∧ maxLines narrow < 2 ^ 53 ∧
      (0 ≤ overlap narrow ∧ overlap narrow < maxLines narrow) ∧
      ∃ cover, chunk shortTail narrow = .ok (cover ++ codeBlocks shortTail) ∧ cover ≠ [] ∧
        (cover ≠ [] ∧ HeadingCover shortTail 2 2 cover ∨ WindowCover shortTail 2 0 cover) := by
  refine ⟨by decide, by decide, by decide, ?_⟩
  obtain ⟨cover, hchunk, -, hcover, hvisible⟩ :=
    chunk_covers shortTail narrow (by decide) (by decide) (by decide)
  exact ⟨cover, hchunk, hvisible (by decide), hcover⟩

end Markdown

end Chunkwise
