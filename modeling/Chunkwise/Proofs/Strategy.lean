import Chunkwise.Proofs.BoundaryChunks.Chunker
import Chunkwise.Proofs.Declaration
import Chunkwise.Proofs.Markdown
import Chunkwise.Strategy

namespace Chunkwise

variable {source : Source} {o : Options} {fault : Fault}

theorem DeclarationChunker.text_of_fault (hmax : 1 ≤ maxLines o)
    (h : (standard.chunkSource source o).fault = some fault) : source.text = .error fault := by
  have hstride : ∃ s, Stride.ofChars standard.windowSize standard.windowOverlap = .ok s := ⟨_, rfl⟩
  obtain ⟨s, hs⟩ := hstride
  obtain ⟨found, -, hfeed⟩ := exists_feed (k := standard) hmax
  cases htext : source.text with
  | error other =>
      simp only [chunkSource, SlidingWindow.ofSource, hs, htext] at h
      cases h
      rfl
  | ok t =>
      rw [hfeed source s t hs htext] at h
      cases h

theorem Strategy.text_of_fault {strategy : Strategy} {parsers : Parsers} (ho : o.IsValid)
    (h : (strategy.feed parsers source o).fault = some fault) : source.text = .error fault := by
  have hdocument : LineChunks.defaultMaxLines ≤ 150 := by decide
  cases strategy with
  | boundaries p =>
      obtain ⟨hmax, hleast⟩ := ho.width (Int.le_refl _)
      have hoverlap := ho.overlap_getD hleast ⟨Int.le_refl 0, hmax⟩
      exact WholeText.text_of_fault hmax hoverlap
        (fun t => BoundaryChunker.exists_chunkText _ t hmax hoverlap) h
  | declarations =>
      exact DeclarationChunker.text_of_fault (ho.width (by decide)).1 h
  | markdown =>
      obtain ⟨hmax, hleast⟩ := ho.width hdocument
      have hoverlap := ho.overlap_getD hleast ⟨Int.le_refl 0, hmax⟩
      exact WholeText.text_of_fault hmax hoverlap (fun t => Markdown.exists_chunk t hmax hoverlap) h
  | lines =>
      obtain ⟨hmax, hleast⟩ := ho.width (Int.le_refl _)
      refine LineChunks.text_of_fault hmax (ho.overlap_getD hleast ?_) h
      rw [LineChunks.maxLines, LineChunks.defaultOverlap]
      omega

end Chunkwise
