import Chunkwise.BoundaryChunks.Chunker
import Chunkwise.Proofs.BoundaryChunks.Empty
import Chunkwise.Proofs.Options
import Chunkwise.Proofs.WholeText

namespace Chunkwise

namespace BoundaryChunker

open BoundaryChunks

theorem exists_ofBoundaries (language : String) (t : Text) (bs : List Boundary)
    (maxLines minLines : Int) (preserveContext : Bool) (hmax : 1 ≤ maxLines) :
    ∃ chunks, ofBoundaries language t bs maxLines minLines preserveContext = .ok chunks ∧
      Stack ⟨LineIndex.ofText t, maxLines, minLines, language⟩ (LineIndex.ofText t).lineCount
        chunks := by
  obtain ⟨chunks, hsweep, hstack⟩ :=
    exists_sweep_stack ⟨LineIndex.ofText t, maxLines, minLines, language⟩ hmax bs
  rw [ofBoundaries, hsweep]
  cases preserveContext with
  | false => exact ⟨chunks, rfl, hstack⟩
  | true => exact ⟨_, rfl, hstack.withContext⟩

theorem chunkText_of_nil {k : BoundaryChunker} {t : Text} (o : Options) (h : k.boundaries t = []) :
    k.chunkText t o = LineChunks.ofText t (maxLines o) (overlap o) := by
  rw [chunkText, h]

theorem chunkText_of_ne_nil {k : BoundaryChunker} {t : Text} (o : Options)
    (h : k.boundaries t ≠ []) :
    k.chunkText t o = ofBoundaries k.language t (k.boundaries t) (maxLines o) (minLines o)
      (o.preserveContext.getD true) := by
  rw [chunkText]
  split
  · contradiction
  · rfl

theorem boundaries_eq_nil_iff {k : BoundaryChunker} {t : Text} :
    k.boundaries t = [] ↔ ∀ bs, (k.parsers.get k.language).boundaries t = .ok bs → bs = [] := by
  rw [boundaries]
  cases (k.parsers.get k.language).boundaries t with
  | ok bs => simp
  | error fault => simp

theorem exists_chunkText (k : BoundaryChunker) (t : Text) {o : Options} (hmax : 1 ≤ maxLines o)
    (hoverlap : 0 ≤ overlap o ∧ overlap o < maxLines o) : ∃ chunks, k.chunkText t o = .ok chunks := by
  by_cases hnil : k.boundaries t = []
  · rw [chunkText_of_nil o hnil]
    exact LineChunks.exists_ofText t hmax hoverlap
  · obtain ⟨chunks, hchunks, -⟩ := exists_ofBoundaries k.language t (k.boundaries t) (maxLines o)
      (minLines o) (o.preserveContext.getD true) hmax
    exact ⟨chunks, by rw [chunkText_of_ne_nil o hnil, hchunks]⟩

theorem quotes_of_mem_chunkText {k : BoundaryChunker} {t : Text} {o : Options}
    {chunks : List Chunk} {c : Chunk} (hmax : 1 ≤ maxLines o) (h : k.chunkText t o = .ok chunks)
    (hc : c ∈ chunks) : c.Quotes t := by
  by_cases hnil : k.boundaries t = []
  · rw [chunkText_of_nil o hnil] at h
    exact LineChunks.quotes_of_mem_ofText h hc
  · obtain ⟨chunks', hchunks, hstack⟩ := exists_ofBoundaries k.language t (k.boundaries t)
      (maxLines o) (minLines o) (o.preserveContext.getD true) hmax
    rw [chunkText_of_ne_nil o hnil, hchunks] at h
    cases h
    have hlast := hstack.last_le c hc
    rw [LineIndex.lineCount_ofText] at hlast
    exact ⟨hlast, (hstack.text_eq c hc).trans (LineIndex.extract_span hlast)⟩

theorem exists_ofBoundaries_ne_nil_iff (language : String) (t : Text) (bs : List Boundary)
    {maxLines minLines : Int} (preserveContext : Bool) (hmax : 1 ≤ maxLines)
    (hmin : minLines ≤ maxLines) :
    ∃ chunks, ofBoundaries language t bs maxLines minLines preserveContext = .ok chunks ∧
      (chunks ≠ [] ↔ Boundary.Stretch t.lines.length minLines bs) := by
  obtain ⟨chunks, hsweep, hne⟩ :=
    exists_sweep_ne_nil_iff (c := ⟨LineIndex.ofText t, maxLines, minLines, language⟩) bs hmax hmin
  rw [LineIndex.lineCount_ofText] at hne
  rw [ofBoundaries, hsweep]
  cases preserveContext with
  | false => exact ⟨chunks, rfl, hne⟩
  | true => exact ⟨_, rfl, (withContext_ne_nil_iff chunks).trans hne⟩

theorem chunkSource_ne_nil_iff {k : BoundaryChunker} {content : Content} {t : Text} {o : Options}
    {maxSize : Int} (htext : content.text = .ok t) (hsize : content.size ≤ maxSize)
    (hmax : 1 ≤ maxLines o) (hmin : minLines o ≤ maxLines o)
    (hoverlap : 0 ≤ overlap o ∧ overlap o < maxLines o) (ht : t.allBlank = false) :
    (k.chunkSource (.ok content) o maxSize).chunks ≠ [] ↔
      (k.boundaries t ≠ [] → Boundary.Stretch t.lines.length (minLines o) (k.boundaries t)) := by
  rw [chunkSource, WholeText.chunkSource_of_le htext hsize]
  change (Feed.ofExcept (k.chunkText t o)).chunks ≠ [] ↔ _
  by_cases hnil : k.boundaries t = []
  · obtain ⟨chunks, hchunks, hne⟩ := LineChunks.exists_ofText_ne_nil hmax hoverlap ht
    rw [chunkText_of_nil o hnil, hchunks]
    exact iff_of_true hne fun h => absurd hnil h
  · obtain ⟨chunks, hchunks, hne⟩ := exists_ofBoundaries_ne_nil_iff k.language t (k.boundaries t)
      (o.preserveContext.getD true) hmax hmin
    rw [chunkText_of_ne_nil o hnil, hchunks]
    exact hne.trans ⟨fun h _ => h, fun h => h hnil⟩

theorem chunk_eq {t : Text} (k : BoundaryChunker) (path : String) (o : Options)
    (h : t.length ≤ maxTextLength) : k.chunk t path o = k.chunkText t o := by
  rw [chunk, if_neg (by omega)]

theorem exists_chunk_disjoint (k : BoundaryChunker) (t : Text) (path : String) (o : Options)
    (hlength : t.length ≤ maxTextLength) (hmax : 1 ≤ maxLines o)
    (hoverlap : ∀ n, o.overlap = some n → 0 ≤ n ∧ n < maxLines o) :
    ∃ chunks, k.chunk t path o = .ok chunks ∧ (k.boundaries t ≠ [] →
      (chunks.Pairwise fun x y => x.span.last < y.span.first) ∧
      ∀ x ∈ chunks, 1 ≤ x.span.first ∧ x.span.first ≤ x.span.last ∧
        x.span.last ≤ (LineIndex.ofText t).lineCount ∧
        x.text = (LineIndex.ofText t).extract x.span.first x.span.last) := by
  rw [chunk_eq k path o hlength]
  by_cases h : k.boundaries t = []
  · obtain ⟨chunks, hchunks⟩ := LineChunks.exists_ofText t hmax
      (Options.overlap_bounds hoverlap ⟨Int.le_refl 0, hmax⟩)
    rw [chunkText_of_nil o h]
    exact ⟨chunks, hchunks, fun hne => absurd h hne⟩
  · obtain ⟨chunks, hchunks, hstack⟩ := exists_ofBoundaries k.language t (k.boundaries t)
      (maxLines o) (minLines o) (o.preserveContext.getD true) hmax
    rw [chunkText_of_ne_nil o h]
    refine ⟨chunks, hchunks, fun _ => ⟨hstack.pairwise, fun x hx => ?_⟩⟩
    exact ⟨x.span.one_le_first, x.span.first_le_last, hstack.last_le x hx, hstack.text_eq x hx⟩

def scattered : Parser where
  available := .ok true
  boundaries _ := .ok [⟨5, 2, .function, none⟩, ⟨2, 3, .function, some "f"⟩, ⟨-7, 0, .other, none⟩,
    ⟨0, 1, .other, none⟩, ⟨3, 900, .classLike, some "C"⟩, ⟨2, 3, .function, some "f"⟩]

theorem exists_chunk_disjoint_scattered :
    ∃ chunks, (BoundaryChunker.mk "python" (Parsers.none.register "python" scattered)).chunk
        "x\ny\nz\n\nw".toList "a.py" { maxLines := some 2, minLines := some 1 } = .ok chunks ∧
      chunks.Pairwise fun x y => x.span.last < y.span.first := by
  obtain ⟨chunks, hchunks, h⟩ := exists_chunk_disjoint
    (BoundaryChunker.mk "python" (Parsers.none.register "python" scattered)) "x\ny\nz\n\nw".toList
    "a.py" { maxLines := some 2, minLines := some 1 } (by decide) (by decide) (by simp)
  exact ⟨chunks, hchunks, (h (by decide)).1⟩

end BoundaryChunker

end Chunkwise
