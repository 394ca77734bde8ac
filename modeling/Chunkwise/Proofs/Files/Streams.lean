import Chunkwise.Proofs.BoundaryChunks.Chunker
import Chunkwise.Proofs.Buffer
import Chunkwise.Proofs.Markdown

namespace Chunkwise

variable {content : Content} {t : Text} {o : Options} {maxSize : Int}

theorem LineChunks.ofText_as_buffered {maxLines overlap : Int} {chunks : List Chunk}
    (h : ofText t maxLines overlap = .ok chunks) :
    ∃ s, Stride.ofLines maxLines overlap = .ok s ∧
      ((Stride.Buffer.ofItems s t.lines).windows s).filterMap ofWindow = chunks := by
  obtain ⟨s, hs, rfl⟩ := map_eq_ok h
  refine ⟨s, hs, ?_⟩
  rw [Stride.Buffer.windows_ofItems, cut_eq_read, read]

namespace Content

theorem streams_as_in_memory (htext : content.text = .ok t) :
    (∀ maxLines overlap : Int, 1 ≤ maxLines → 0 ≤ overlap ∧ overlap < maxLines →
      ∃ chunks, LineChunks.ofText t maxLines overlap = .ok chunks ∧
        LineChunks.ofSource (.ok content) maxLines overlap = .ofChunks chunks ∧
        ∃ s, Stride.ofLines maxLines overlap = .ok s ∧
          ((Stride.Buffer.ofItems s t.lines).windows s).filterMap LineChunks.ofWindow = chunks) ∧
    (∀ (k : BoundaryChunker) (o : Options) (maxSize : Int), 1 ≤ BoundaryChunker.maxLines o →
      0 ≤ BoundaryChunker.overlap o ∧ BoundaryChunker.overlap o < BoundaryChunker.maxLines o →
      (content.size ≤ maxSize → ∃ chunks, k.chunkText t o = .ok chunks ∧
        k.chunkSource (.ok content) o maxSize = .ofChunks chunks) ∧
      (maxSize < content.size → ∃ chunks,
        LineChunks.ofText t (BoundaryChunker.maxLines o) (BoundaryChunker.overlap o) = .ok chunks ∧
        k.chunkSource (.ok content) o maxSize = .ofChunks chunks ∧
        ∀ k' : BoundaryChunker,
          (∀ bs, (k'.parsers.get k'.language).boundaries t = .ok bs → bs = []) →
            k'.chunkText t o = .ok chunks)) ∧
    (∀ (o : Options) (maxSize : Int), 1 ≤ Markdown.maxLines o →
      0 ≤ Markdown.overlap o ∧ Markdown.overlap o < Markdown.maxLines o →
      (content.size ≤ maxSize → ∃ chunks, Markdown.chunk t o = .ok chunks ∧
        Markdown.chunkSource (.ok content) o maxSize = .ofChunks chunks) ∧
      (maxSize < content.size → ∃ chunks,
        LineChunks.ofText t (Markdown.maxLines o) (Markdown.overlap o) = .ok chunks ∧
        Markdown.chunkSource (.ok content) o maxSize = .ofChunks chunks)) := by
  refine ⟨?_, ?_, ?_⟩
  · intro maxLines overlap hmax hoverlap
    obtain ⟨chunks, hchunks, hfeed⟩ := LineChunks.ofSource_as_in_memory htext hmax hoverlap
    exact ⟨chunks, hchunks, hfeed, LineChunks.ofText_as_buffered hchunks⟩
  · intro k o maxSize hmax hoverlap
    refine ⟨WholeText.chunkSource_as_in_memory (w := k.wholeText o) htext
      (k.exists_chunkText t hmax hoverlap), ?_⟩
    intro hsize
    obtain ⟨chunks, hchunks, hfeed⟩ :=
      WholeText.chunkSource_as_lines (w := k.wholeText o) htext hmax hoverlap hsize
    refine ⟨chunks, hchunks, hfeed, fun k' hnone => ?_⟩
    rw [BoundaryChunker.chunkText_of_nil o (BoundaryChunker.boundaries_eq_nil_iff.mpr hnone)]
    exact hchunks
  · intro o maxSize hmax hoverlap
    exact ⟨WholeText.chunkSource_as_in_memory (w := Markdown.wholeText o) htext
        (Markdown.exists_chunk t hmax hoverlap),
      WholeText.chunkSource_as_lines (w := Markdown.wholeText o) htext hmax hoverlap⟩

def threeLines : Content :=
  .bytes "a\nb\nc".toUTF8

theorem streams_as_in_memory_threeLines :
    ∃ chunks, LineChunks.ofText "a\nb\nc".toList 2 1 = .ok chunks ∧
      (BoundaryChunker.mk "python" Parsers.none).chunkSource (.ok threeLines)
        { maxLines := some 2, overlap := some 1 } 4 = .ofChunks chunks := by
  have htext : threeLines.text = .ok "a\nb\nc".toList := by decide +kernel
  obtain ⟨-, hboundaries, -⟩ := streams_as_in_memory htext
  obtain ⟨chunks, hchunks, hfeed, -⟩ := (hboundaries ⟨"python", Parsers.none⟩
    { maxLines := some 2, overlap := some 1 } 4 (by decide) (by decide)).2 (by decide +kernel)
  exact ⟨chunks, hchunks, hfeed⟩

end Content

end Chunkwise
