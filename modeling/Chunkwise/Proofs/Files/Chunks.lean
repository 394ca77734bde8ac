import Chunkwise.Files.Chunks
import Chunkwise.Proofs.BoundaryChunks.Chunker
import Chunkwise.Proofs.Declaration
import Chunkwise.Proofs.Markdown

namespace Chunkwise

namespace Strategy

variable {parsers : Parsers} {source : Source} {o : Options} {c : Chunk}

theorem quotes_of_mem_feed {strategy : Strategy} (hmax : ∀ n, o.maxLines = some n → 1 ≤ n)
    (hc : c ∈ (strategy.feed parsers source o).chunks) (h : strategy ≠ .declarations) :
    ∃ t, source.text = .ok t ∧ c.Quotes t := by
  cases strategy with
  | boundaries p =>
      have hwidth := Options.one_le_maxLines hmax (show 1 ≤ (120 : Int) by decide)
      exact WholeText.quotes_of_mem_chunkSource
        (fun t chunks hok c hc => BoundaryChunker.quotes_of_mem_chunkText hwidth hok hc) hc
  | declarations => contradiction
  | markdown =>
      have hwidth := Options.one_le_maxLines hmax (show 1 ≤ (150 : Int) by decide)
      exact WholeText.quotes_of_mem_chunkSource
        (fun t chunks hok c hc => Markdown.quotes_of_mem_chunk hwidth hok hc) hc
  | lines => exact LineChunks.quotes_of_mem_ofSource hc

theorem excerpt_of_mem_feed (hmax : ∀ n, o.maxLines = some n → 1 ≤ n)
    (hc : c ∈ (declarations.feed parsers source o).chunks) :
    ∃ t, source.text = .ok t ∧ ∃ a b, c.Excerpt t a b :=
  DeclarationChunker.excerpt_of_mem_chunkSource (Options.one_le_maxLines hmax (by decide)) hc

end Strategy

theorem Chunk.Excerpt.offsets {t : Text} {c : Chunk} {a b : Nat} (h : c.Excerpt t a b) :
    (LineIndex.ofText t).offsetOf c.span.first ≤ a ∧
      b ≤ (LineIndex.ofText t).offsetOf (c.span.last + 1) := by
  obtain ⟨-, hstart, -, hlength, hstop, -⟩ := h
  have hfirst := LineIndex.offsetOf_ofText t (c.span.first - 1)
  have hlast := LineIndex.offsetOf_ofText t c.span.last
  have hcast : ((c.span.first - 1 : Nat) : Int) + 1 = c.span.first := by
    have := c.span.one_le_first
    omega
  rw [hcast] at hfirst
  rw [hfirst, hlast]
  omega

namespace FileTree

theorem chunkFile_eq_ok {tree : FileTree} {current : Place} {parsers : Parsers} {o : Options}
    {path : String} {feed : Feed} (h : tree.chunkFile current parsers o path = .ok feed) :
    ∃ content, tree.read current path = .ok content ∧
      feed = (Strategy.select path content.size).feed parsers (.ok content) o := by
  obtain ⟨content, hcontent, h⟩ := bind_eq_ok h
  exact ⟨content, hcontent, (Except.ok.inj h).symm⟩

theorem chunkFile_lines_faithful {tree : FileTree} {current : Place} {parsers : Parsers} {o : Options}
    {path : String} {feed : Feed} (hmax : ∀ n, o.maxLines = some n → 1 ≤ n)
    (h : tree.chunkFile current parsers o path = .ok feed) :
    ∃ content, tree.read current path = .ok content ∧ ∀ c ∈ feed.chunks, ∃ t, content.text = .ok t ∧
      1 ≤ c.span.first ∧ c.span.first ≤ c.span.last ∧ c.span.last ≤ t.lines.length ∧
      (Strategy.select path content.size ≠ .declarations → c.text = Text.joinLines
        ((t.lines.drop (c.span.first - 1)).take (c.span.last - c.span.first + 1))) ∧
      (Strategy.select path content.size = .declarations → ∃ a b, a ≤ b ∧
        (LineIndex.ofText t).offsetOf c.span.first ≤ a ∧
        b ≤ (LineIndex.ofText t).offsetOf (c.span.last + 1) ∧
        c.text = if Declaration.maxLength < b - a
          then (t.drop a).take Declaration.maxLength ++ Declaration.cutMark
          else (t.drop a).take (b - a)) := by
  obtain ⟨content, hcontent, hfeed⟩ := chunkFile_eq_ok h
  refine ⟨content, hcontent, fun c hc => ?_⟩
  rw [hfeed] at hc
  by_cases hstrategy : Strategy.select path content.size = .declarations
  · rw [hstrategy] at hc
    obtain ⟨t, ht, a, b, hexcerpt⟩ := Strategy.excerpt_of_mem_feed hmax hc
    refine ⟨t, ht, c.span.one_le_first, c.span.first_le_last, hexcerpt.last_le,
      fun hne => absurd hstrategy hne, fun _ => ⟨a, b, hexcerpt.le, ?_⟩⟩
    obtain ⟨hfirst, hlast⟩ := hexcerpt.offsets
    exact ⟨hfirst, hlast, hexcerpt.text_eq⟩
  · obtain ⟨t, ht, hlast, htext⟩ := Strategy.quotes_of_mem_feed hmax hc hstrategy
    exact ⟨t, ht, c.span.one_le_first, c.span.first_le_last, hlast, fun _ => htext,
      fun heq => absurd heq hstrategy⟩

def note : FileTree where
  entries := [(["a.md"], .bytes "# A\n\nx\n".toUTF8)]

theorem chunkFile_lines_faithful_note :
    ∃ feed, note.chunkFile [] Parsers.none { minLines := some 1 } "a.md" = .ok feed ∧
      feed.chunks.map (·.text) = ["# A\n\nx".toList] ∧
      ∃ content, note.read [] "a.md" = .ok content ∧
        ∀ c ∈ feed.chunks, ∃ t, content.text = .ok t ∧ c.span.last ≤ t.lines.length := by
  have hrun : note.chunkFile [] Parsers.none { minLines := some 1 } "a.md" =
      .ok (Strategy.markdown.feed Parsers.none (.ok (.bytes "# A\n\nx\n".toUTF8))
        { minLines := some 1 }) := rfl
  obtain ⟨content, hcontent, h⟩ := chunkFile_lines_faithful (by simp) hrun
  refine ⟨_, hrun, by decide +kernel, content, hcontent, fun c hc => ?_⟩
  obtain ⟨t, ht, -, -, hlast, -⟩ := h c hc
  exact ⟨t, ht, hlast⟩

end FileTree

end Chunkwise
