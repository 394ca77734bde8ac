import Chunkwise.Markdown.Chunker
import Chunkwise.Proofs.Loops
import Chunkwise.Proofs.Pieces
import Chunkwise.Proofs.WholeText

namespace Chunkwise

namespace Markdown

variable {t : Text} {c : Chunk} {n : Nat}

namespace SectionScan

variable {s : SectionScan}

theorem toList_closed (s : SectionScan) : s.closed.toList = s.done.toList ++ s.current.toList := by
  rw [closed]
  cases s.current with
  | none => simp
  | some current => simp

def Tiles (n : Nat) (s : SectionScan) : Prop :=
  Span.Tile 0 (s.closed.toList.map (·.span)) n

theorem tiles_empty : Tiles 0 {} :=
  .nil 0

theorem Tiles.extend (h : s.Tiles n) : (s.extend n).Tiles (n + 1) := by
  rw [Tiles, toList_closed, List.map_append] at h ⊢
  cases hcurrent : s.current with
  | none =>
      simp only [hcurrent, Option.toList_none, List.map_nil, List.append_nil] at h
      simp only [SectionScan.extend, hcurrent, Option.toList_some, List.map_cons, List.map_nil]
      exact Span.Tile.concat_iff.mpr ⟨h, rfl⟩
  | some current =>
      simp only [hcurrent, Option.toList_some, List.map_cons, List.map_nil] at h
      simp only [SectionScan.extend, hcurrent, Option.toList_some, List.map_cons, List.map_nil]
      obtain ⟨htile, hlast⟩ := Span.Tile.concat_iff.mp h
      refine Span.Tile.concat_iff.mpr ⟨htile, ?_⟩
      simp only [Span.extendTo]
      omega

theorem Tiles.step (h : s.Tiles n) (line : Text) : (s.step (line, n)).Tiles (n + 1) := by
  rw [SectionScan.step]
  split
  · exact Tiles.extend h
  · split
    · exact h.extend
    · rw [Tiles, toList_closed, List.map_append]
      exact Span.Tile.concat_iff.mpr ⟨h, rfl⟩

end SectionScan

theorem tiles_sectionScan (t : Text) : (sectionScan t).Tiles t.lines.length :=
  foldl_zipIdx_keeps SectionScan.Tiles t.lines SectionScan.tiles_empty
    fun _ line _ _ h => h.step line

theorem tile_sections (h : sections t ≠ []) :
    Span.Tile 0 ((sections t).map (·.span)) t.lines.length := by
  rw [sections] at h ⊢
  split
  · exact tiles_sectionScan t
  · next hnone => simp [hnone] at h

theorem last_le_of_mem_sections {x : Section} (h : x ∈ sections t) : x.span.last ≤ t.lines.length :=
  ((tile_sections (List.ne_nil_of_mem h)).bounds (List.mem_map_of_mem h)).2

def Section.Kept (t : Text) (minLines : Int) (x : Section) : Prop :=
  minLines ≤ x.span.size ∧
    ((LineIndex.ofText t).extract x.span.first x.span.last).allBlank = false

instance (t : Text) (minLines : Int) (x : Section) : Decidable (x.Kept t minLines) :=
  inferInstanceAs (Decidable (_ ∧ _))

theorem cutSection_eq {x : Section} (maxLines : Int) {minLines : Int} :
    cutSection (LineIndex.ofText t) maxLines minLines x =
      if x.Kept t minLines then (x.span.pieces maxLines).map fun pieces =>
        pieces.map (sectionChunk (LineIndex.ofText t) x (1 < pieces.length))
      else .ok [] := by
  rw [cutSection]
  by_cases hshort : (x.span.size : Int) < minLines
  · have hkept : ¬ x.Kept t minLines := fun h => by
      have := h.1
      omega
    rw [if_pos hshort, if_neg hkept]
  · rw [if_neg hshort]
    by_cases hblank : ((LineIndex.ofText t).extract x.span.first x.span.last).allBlank = true
    · have hkept : ¬ x.Kept t minLines := fun h => by simp [h.2] at hblank
      rw [if_pos hblank, if_neg hkept]
    · have hkept : x.Kept t minLines := ⟨by omega, by simpa using hblank⟩
      rw [if_neg hblank, if_pos hkept]

theorem quotes_sectionChunk {x : Section} {isPart : Bool} {span : Span}
    (h : span.last ≤ t.lines.length) :
    (sectionChunk (LineIndex.ofText t) x isPart span).Quotes t :=
  ⟨h, LineIndex.extract_span h⟩

theorem quotes_of_mem_cutSection {maxLines minLines : Int} {x : Section} {chunks : List Chunk}
    (hmax : 1 ≤ maxLines) (hx : x.span.last ≤ t.lines.length)
    (h : cutSection (LineIndex.ofText t) maxLines minLines x = .ok chunks) (hc : c ∈ chunks) :
    c.Quotes t := by
  rw [cutSection_eq] at h
  split at h
  · obtain ⟨pieces, hpieces, hcut⟩ := Span.exists_pieces x.span hmax
    rw [hpieces] at h
    cases h
    obtain ⟨piece, hpiece, rfl⟩ := List.mem_map.mp hc
    exact quotes_sectionChunk (Nat.le_trans (hcut.last_le hpiece) hx)
  · cases h
    cases hc

theorem quotes_of_mem_sectionChunks {maxLines minLines : Int} {chunks : List Chunk}
    (hmax : 1 ≤ maxLines) (h : sectionChunks t maxLines minLines = .ok chunks) (hc : c ∈ chunks) :
    c.Quotes t := by
  obtain ⟨x, hx, part, hcut, hpart⟩ := (mem_flatten_mapM_iff h).mp hc
  exact quotes_of_mem_cutSection hmax (last_le_of_mem_sections hx) hcut hpart

structure IsCodeBlock (t : Text) (c : Chunk) : Prop where
  kind : c.kind = .codeBlock
  quotes : c.Quotes t

structure BlockScan.Quotes (t : Text) (n : Nat) (s : BlockScan) : Prop where
  done : ∀ x ∈ s.done, IsCodeBlock t x
  opened : ∀ b, s.opened = some b →
    b.above + b.lines.length = n ∧ b.lines.reverse = (t.lines.drop b.above).take b.lines.length

theorem OpenBlock.isCodeBlock {b : OpenBlock} (hn : b.above + b.lines.length ≤ t.lines.length)
    (hlines : b.lines.reverse = (t.lines.drop b.above).take b.lines.length)
    (h : b.chunk? = some c) : IsCodeBlock t c := by
  rw [OpenBlock.chunk?] at h
  split at h
  · cases h
    refine ⟨rfl, hn, ?_⟩
    change Text.joinLines b.lines.reverse = Text.joinLines ((t.lines.drop (b.above + 1 - 1)).take
      (b.above + b.lines.length - (b.above + 1) + 1))
    rw [hlines]
    congr 2
    omega
  · cases h

namespace BlockScan

variable {s : BlockScan}

theorem Quotes.closed (h : s.Quotes t n) (hn : n ≤ t.lines.length) :
    ∀ x ∈ s.closed, IsCodeBlock t x := by
  rw [BlockScan.closed]
  split
  · exact h.done
  · next chunk hchunk =>
      intro x hx
      rcases Array.mem_push.mp hx with hx | rfl
      · exact h.done x hx
      · obtain ⟨b, hb, hchunk⟩ := Option.bind_eq_some_iff.mp hchunk
        obtain ⟨habove, hlines⟩ := h.opened b hb
        exact OpenBlock.isCodeBlock (habove ▸ hn) hlines hchunk

theorem Quotes.step {line : Text} (hline : t.lines[n]? = some line) (h : s.Quotes t n) :
    (s.step (line, n)).Quotes t (n + 1) := by
  rw [BlockScan.step]
  split
  · refine ⟨h.done, ?_⟩
    rintro b ⟨⟩
    simp
  · refine ⟨h.closed ?_, by simp⟩
    exact Nat.le_of_lt (List.getElem?_eq_some_iff.mp hline).1
  · next b _ hb =>
      refine ⟨h.done, ?_⟩
      rintro _ ⟨⟩
      obtain ⟨habove, hlines⟩ := h.opened b hb
      refine ⟨by simp only [List.length_cons]; omega, ?_⟩
      rw [List.reverse_cons, List.length_cons, List.take_add_one, hlines, List.getElem?_drop, habove,
        hline]
      rfl
  · next hopened =>
      refine ⟨h.done, fun b hb => ?_⟩
      rw [hopened] at hb
      cases hb

end BlockScan

theorem isCodeBlock_of_mem_codeBlocks (h : c ∈ codeBlocks t) : IsCodeBlock t c := by
  have hscan : (blockScan t).Quotes t t.lines.length :=
    foldl_zipIdx_keeps (BlockScan.Quotes t) t.lines ⟨by simp, by simp⟩
      fun _ _ _ hline hs => hs.step hline
  exact hscan.closed (Nat.le_refl _) c (Array.mem_toList_iff.mp h)

theorem coverChunks_eq (t : Text) (o : Options) :
    coverChunks t o =
      (if o.byHeadings.getD true && !t.allBlank then sectionChunks t (maxLines o) (minLines o)
        else .ok []).bind fun chunks =>
          if chunks.isEmpty then LineChunks.ofText t (maxLines o) (overlap o) else .ok chunks := by
  rw [coverChunks]
  split
  · rfl
  · rfl

theorem quotes_of_mem_coverChunks {o : Options} {chunks : List Chunk} (hmax : 1 ≤ maxLines o)
    (h : coverChunks t o = .ok chunks) (hc : c ∈ chunks) : c.Quotes t := by
  rw [coverChunks_eq] at h
  obtain ⟨found, hfound, h⟩ := bind_eq_ok h
  split at h
  · exact LineChunks.quotes_of_mem_ofText h hc
  · cases h
    split at hfound
    · exact quotes_of_mem_sectionChunks hmax hfound hc
    · cases hfound
      cases hc

theorem exists_cutSection (t : Text) {maxLines : Int} (minLines : Int) (x : Section)
    (hmax : 1 ≤ maxLines) :
    ∃ chunks, cutSection (LineIndex.ofText t) maxLines minLines x = .ok chunks := by
  rw [cutSection_eq]
  split
  · obtain ⟨pieces, hpieces, -⟩ := Span.exists_pieces x.span hmax
    rw [hpieces]
    exact ⟨_, rfl⟩
  · exact ⟨_, rfl⟩

theorem exists_sectionChunks (t : Text) {maxLines : Int} (minLines : Int) (hmax : 1 ≤ maxLines) :
    ∃ chunks, sectionChunks t maxLines minLines = .ok chunks := by
  obtain ⟨parts, hparts⟩ := exists_mapM_ok (sections t) fun x _ =>
    exists_cutSection t minLines x hmax
  rw [sectionChunks, hparts]
  exact ⟨_, rfl⟩

theorem exists_headingChunks (t : Text) {o : Options} (hmax : 1 ≤ maxLines o) :
    ∃ found, (if o.byHeadings.getD true && !t.allBlank then
      sectionChunks t (maxLines o) (minLines o) else .ok []) = .ok found := by
  split
  · exact exists_sectionChunks t (minLines o) hmax
  · exact ⟨[], rfl⟩

theorem exists_coverChunks (t : Text) {o : Options} (hmax : 1 ≤ maxLines o)
    (hoverlap : 0 ≤ overlap o ∧ overlap o < maxLines o) : ∃ chunks, coverChunks t o = .ok chunks := by
  obtain ⟨found, hfound⟩ := exists_headingChunks t hmax
  rw [coverChunks_eq, hfound]
  cases found with
  | nil => exact LineChunks.exists_ofText t hmax hoverlap
  | cons x xs => exact ⟨x :: xs, rfl⟩

theorem exists_coverChunks_ne_nil {o : Options} (hmax : 1 ≤ maxLines o)
    (hoverlap : 0 ≤ overlap o ∧ overlap o < maxLines o) (ht : t.allBlank = false) :
    ∃ chunks, coverChunks t o = .ok chunks ∧ chunks ≠ [] := by
  obtain ⟨found, hfound⟩ := exists_headingChunks t hmax
  rw [coverChunks_eq, hfound]
  cases found with
  | nil => exact LineChunks.exists_ofText_ne_nil hmax hoverlap ht
  | cons x xs => exact ⟨x :: xs, rfl, List.cons_ne_nil x xs⟩

theorem exists_chunk (t : Text) {o : Options} (hmax : 1 ≤ maxLines o)
    (hoverlap : 0 ≤ overlap o ∧ overlap o < maxLines o) : ∃ chunks, chunk t o = .ok chunks := by
  obtain ⟨cover, hcover⟩ := exists_coverChunks t hmax hoverlap
  rw [chunk, hcover]
  exact ⟨_, rfl⟩

theorem exists_chunk_ne_nil {o : Options} (hmax : 1 ≤ maxLines o)
    (hoverlap : 0 ≤ overlap o ∧ overlap o < maxLines o) (ht : t.allBlank = false) :
    ∃ chunks, chunk t o = .ok chunks ∧ chunks ≠ [] := by
  obtain ⟨cover, hcover, hne⟩ := exists_coverChunks_ne_nil hmax hoverlap ht
  rw [chunk, hcover]
  refine ⟨_, rfl, ?_⟩
  split
  · exact List.append_ne_nil_of_left_ne_nil hne _
  · exact hne

theorem chunkSource_ne_nil {content : Content} {o : Options} (maxSize : Int)
    (htext : content.text = .ok t) (hmax : 1 ≤ maxLines o)
    (hoverlap : 0 ≤ overlap o ∧ overlap o < maxLines o) (ht : t.allBlank = false) :
    (chunkSource (.ok content) o maxSize).chunks ≠ [] := by
  by_cases hsize : maxSize < content.size
  · rw [chunkSource, WholeText.chunkSource_of_lt hsize]
    exact LineChunks.ofSource_ne_nil htext hmax hoverlap ht
  · obtain ⟨chunks, hchunks, hne⟩ := exists_chunk_ne_nil hmax hoverlap ht
    have hmake : (wholeText o).make t = .ok chunks := hchunks
    rw [chunkSource, WholeText.chunkSource_of_le htext (Int.not_lt.mp hsize), hmake]
    exact hne

theorem quotes_of_mem_chunk {o : Options} {chunks : List Chunk} (hmax : 1 ≤ maxLines o)
    (h : chunk t o = .ok chunks) (hc : c ∈ chunks) : c.Quotes t := by
  obtain ⟨cover, hcover, h⟩ := bind_eq_ok h
  cases h
  split at hc
  · rcases List.mem_append.mp hc with hc | hc
    · exact quotes_of_mem_coverChunks hmax hcover hc
    · exact (isCodeBlock_of_mem_codeBlocks hc).quotes
  · exact quotes_of_mem_coverChunks hmax hcover hc

end Markdown

end Chunkwise
