import Chunkwise.Proofs.LineChunks
import Chunkwise.WholeText

namespace Chunkwise

variable {source : Source} {content : Content} {t : Text} {c : Chunk} {fault : Fault}
  {maxLines overlap maxSize : Int}

theorem Feed.fault_ofExcept {e : Except Fault (List Chunk)} (h : (ofExcept e).fault = some fault) :
    e = .error fault := by
  cases e with
  | ok chunks => cases h
  | error other =>
      cases h
      rfl

theorem Source.text_of_size_error (h : source.size = .error fault) : source.text = .error fault := by
  cases source with
  | ok content => cases h
  | error other =>
      cases h
      rfl

theorem LineChunks.text_of_fault (hmax : 1 ≤ maxLines) (hoverlap : 0 ≤ overlap ∧ overlap < maxLines)
    (h : (ofSource source maxLines overlap).fault = some fault) : source.text = .error fault := by
  obtain ⟨s, hs⟩ := Stride.exists_ofLines hmax hoverlap
  rcases bind_eq_error (Feed.fault_ofExcept h) with hstride | ⟨s, -, hread⟩
  · rw [hs] at hstride
    cases hstride
  · rcases bind_eq_error hread with htext | ⟨t, -, hdone⟩
    · exact htext
    · cases hdone

theorem LineChunks.ofSource_as_in_memory (htext : content.text = .ok t) (hmax : 1 ≤ maxLines)
    (hoverlap : 0 ≤ overlap ∧ overlap < maxLines) :
    ∃ chunks, ofText t maxLines overlap = .ok chunks ∧
      ofSource (.ok content) maxLines overlap = .ofChunks chunks := by
  have hsource : Source.text (.ok content) = .ok t := htext
  obtain ⟨chunks, hchunks⟩ := exists_ofText t hmax hoverlap
  refine ⟨chunks, hchunks, ?_⟩
  rw [ofSource_eq hsource, hchunks]
  rfl

namespace WholeText

variable {w : WholeText}

theorem chunkSource_of_le (htext : content.text = .ok t) (hsize : content.size ≤ maxSize) :
    w.chunkSource (.ok content) maxSize = .ofExcept (w.make t) := by
  have hsource : Source.text (.ok content) = .ok t := htext
  simp only [chunkSource, Source.size, Except.map, if_neg (Int.not_lt.mpr hsize), hsource]
  rfl

theorem chunkSource_of_lt (hsize : maxSize < content.size) :
    w.chunkSource (.ok content) maxSize = LineChunks.ofSource (.ok content) w.maxLines w.overlap := by
  simp only [chunkSource, Source.size, Except.map, if_pos hsize]

theorem chunkSource_as_in_memory (htext : content.text = .ok t)
    (hmake : ∃ chunks, w.make t = .ok chunks) (hsize : content.size ≤ maxSize) :
    ∃ chunks, w.make t = .ok chunks ∧ w.chunkSource (.ok content) maxSize = .ofChunks chunks := by
  obtain ⟨chunks, hchunks⟩ := hmake
  refine ⟨chunks, hchunks, ?_⟩
  rw [chunkSource_of_le htext hsize, hchunks]
  rfl

theorem chunkSource_as_lines (htext : content.text = .ok t) (hmax : 1 ≤ w.maxLines)
    (hoverlap : 0 ≤ w.overlap ∧ w.overlap < w.maxLines) (hsize : maxSize < content.size) :
    ∃ chunks, LineChunks.ofText t w.maxLines w.overlap = .ok chunks ∧
      w.chunkSource (.ok content) maxSize = .ofChunks chunks := by
  obtain ⟨chunks, hchunks, hfeed⟩ := LineChunks.ofSource_as_in_memory htext hmax hoverlap
  exact ⟨chunks, hchunks, (chunkSource_of_lt hsize).trans hfeed⟩

theorem quotes_of_mem_chunkSource
    (hmake : ∀ t chunks, w.make t = .ok chunks → ∀ c ∈ chunks, c.Quotes t)
    (hc : c ∈ (w.chunkSource source maxSize).chunks) : ∃ t, source.text = .ok t ∧ c.Quotes t := by
  rw [chunkSource] at hc
  split at hc
  · cases hc
  · split at hc
    · exact LineChunks.quotes_of_mem_ofSource hc
    · obtain ⟨chunks, h, hc⟩ := Feed.mem_ofExcept hc
      obtain ⟨t, ht, h⟩ := bind_eq_ok h
      exact ⟨t, ht, hmake t chunks h c hc⟩

theorem text_of_fault (hmax : 1 ≤ w.maxLines) (hoverlap : 0 ≤ w.overlap ∧ w.overlap < w.maxLines)
    (hmake : ∀ t, ∃ chunks, w.make t = .ok chunks)
    (h : (w.chunkSource source maxSize).fault = some fault) : source.text = .error fault := by
  rw [chunkSource] at h
  split at h
  · next other hsize =>
      cases h
      exact Source.text_of_size_error hsize
  · split at h
    · exact LineChunks.text_of_fault hmax hoverlap h
    · rcases bind_eq_error (Feed.fault_ofExcept h) with htext | ⟨t, -, hchunks⟩
      · exact htext
      · obtain ⟨chunks, hok⟩ := hmake t
        rw [hok] at hchunks
        cases hchunks

end WholeText

end Chunkwise
