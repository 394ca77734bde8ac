import Chunkwise.Proofs.Files.Chunks

namespace Chunkwise

namespace Strategy

theorem size_le_of_select_boundaries {path : String} {size : Int} {p : Profile}
    (h : select path size = boundaries p) : size ≤ structureLimit := by
  simp only [select] at h
  split at h
  · cases h
  · split at h
    · cases h
    · next hlimit =>
        rw [Bool.or_eq_true, decide_eq_true_eq] at hlimit
        omega

end Strategy

namespace FileTree

theorem chunkFile_of_read {tree : FileTree} {current : Place} {path : String} {content : Content}
    (h : tree.read current path = .ok content) (parsers : Parsers) (o : Options) :
    tree.chunkFile current parsers o path =
      .ok ((Strategy.select path content.size).feed parsers (.ok content) o) := by
  rw [chunkFile, h]
  rfl

theorem chunkFile_visible_ne_nil {tree : FileTree} {current : Place} {path : String}
    {content : Content} {t : Text} (parsers : Parsers) (hread : tree.read current path = .ok content)
    (htext : content.text = .ok t) (hvisible : t.allBlank = false) :
    ∃ feed, tree.chunkFile current parsers {} path = .ok feed ∧
      (Strategy.select path content.size = .lines ∨ Strategy.select path content.size = .markdown →
        feed.chunks ≠ []) ∧
      (∀ p, Strategy.select path content.size = .boundaries p →
        (feed.chunks ≠ [] ↔ ((BoundaryChunker.mk p.language parsers).boundaries t ≠ [] →
          Boundary.Stretch t.lines.length 10
            ((BoundaryChunker.mk p.language parsers).boundaries t)))) ∧
      (Strategy.select path content.size = .declarations → ∀ s,
        Stride.ofChars SlidingWindow.defaultSize SlidingWindow.defaultOverlap = .ok s →
          ∀ w ∈ s.read t, ∀ d ∈ Declaration.allOf w.items, 20 ≤ d.span.size → feed.chunks ≠ []) := by
  have hsource : Source.text (.ok content) = .ok t := htext
  refine ⟨_, chunkFile_of_read hread parsers {}, ?_, ?_, ?_⟩
  · rintro (hlines | hmarkdown)
    · rw [hlines]
      exact LineChunks.ofSource_ne_nil hsource (by decide) (by decide) hvisible
    · rw [hmarkdown]
      exact Markdown.chunkSource_ne_nil _ htext (by decide) (by decide) hvisible
  · intro p hboundaries
    have hsize := Strategy.size_le_of_select_boundaries hboundaries
    rw [hboundaries]
    refine BoundaryChunker.chunkSource_ne_nil_iff htext ?_ (by decide) (by decide) (by decide) hvisible
    exact Int.le_trans hsize (by decide)
  · intro hdeclarations s hs w hw d hd hlong
    rw [hdeclarations]
    exact DeclarationChunker.chunkSource_ne_nil hs hsource (by decide) hw hd (Int.ofNat_le.mpr hlong)

def shortFunction : FileTree where
  entries := [(["f.py"], .bytes "def f():\n    pass\n".toUTF8),
    (["f.txt"], .bytes "def f():\n    pass\n".toUTF8)]

theorem chunkFile_visible_ne_nil_shortFunction :
    ∃ feed, shortFunction.chunkFile [] Parsers.none {} "f.txt" = .ok feed ∧ feed.chunks ≠ [] := by
  obtain ⟨feed, hfeed, hlines, -⟩ := chunkFile_visible_ne_nil Parsers.none
    (show shortFunction.read [] "f.txt" = .ok (.bytes "def f():\n    pass\n".toUTF8) by rfl)
    (show Content.text (.bytes "def f():\n    pass\n".toUTF8) = .ok "def f():\n    pass\n".toList by
      decide +kernel)
    (by decide)
  exact ⟨feed, hfeed, hlines (.inl (by decide +kernel))⟩

theorem chunkFile_shortFunction_eq_nil :
    ∃ content t feed, shortFunction.read [] "f.py" = .ok content ∧ content.text = .ok t ∧
      t.allBlank = false ∧ shortFunction.chunkFile [] Parsers.none {} "f.py" = .ok feed ∧
      feed.chunks = [] := by
  refine ⟨.bytes "def f():\n    pass\n".toUTF8, "def f():\n    pass\n".toList, _, rfl, ?_, ?_, rfl, ?_⟩
  · decide +kernel
  · decide
  · apply List.eq_nil_of_length_eq_zero
    decide +kernel

end FileTree

end Chunkwise
