import Chunkwise.Proofs.Declaration.Chunks
import Chunkwise.Proofs.SlidingSlices

namespace Chunkwise

variable {t : Text} {content : Content} {process : SlidingWindow.Processor}

theorem Stride.read_of_length_le {α : Type} (s : Stride) {items : List α} (h : items.length ≤ s.width) :
    s.read items = if items = [] then [] else [⟨0, items⟩] := by
  rw [s.read_eq, s.grid_eq, if_neg (Nat.not_lt.mpr h), List.take_of_length_le h]

theorem Chunk.shift_zero (c : Chunk) : c.shift 0 = c := rfl

namespace SlidingWindow

variable {e : Except Fault (List Chunk)}

theorem report_whole (h : process 0 t = e.map .ofChunks) :
    report process t 0 ⟨0, t⟩ = .ofExcept e := by
  rw [report, h]
  cases e with
  | error fault => rfl
  | ok chunks =>
      change Feed.mk (chunks.map (·.shift 0)) none = _
      simp [Chunk.shift_zero, Feed.ofExcept, Feed.ofChunks]

theorem ofSource_of_length_le {size overlap : Int} (htext : content.text = .ok t)
    (hbounds : 0 ≤ overlap ∧ overlap < size) (hfits : t.length ≤ size)
    (hprocess : process 0 t = e.map .ofChunks) (hempty : t = [] → e = .ok []) :
    ofSource (.ok content) process size overlap = .ofExcept e := by
  obtain ⟨v, rfl⟩ := Int.eq_ofNat_of_zero_le hbounds.1
  obtain ⟨w, rfl⟩ := Int.eq_ofNat_of_zero_le (show 0 ≤ size by omega)
  obtain ⟨s, hs, hwidth, -⟩ := exists_ofChars (Int.ofNat_lt.mp hbounds.2)
  have hsource : Source.text (.ok content) = .ok t := htext
  simp only [ofSource, hs, hsource]
  rw [feed_eq, s.read_of_length_le (by omega)]
  split
  · next hnil =>
      rw [hempty hnil]
      rfl
  · change Feed.append (report process t 0 ⟨0, t⟩) (.ofChunks []) = _
    rw [Feed.append_ofChunks_nil, report_whole hprocess]

end SlidingWindow

def Origin.withReach (reach : Reach) : Origin → Origin
  | .declaration _ form partOf => .declaration reach form partOf
  | origin => origin

def Chunk.withReach (reach : Reach) (c : Chunk) : Chunk :=
  { c with origin := c.origin.withReach reach }

structure Chunk.StreamedAs (c e : Chunk) : Prop where
  text_eq : e.text = c.text
  span_eq : e.span = c.span
  kind_eq : e.kind = c.kind
  name_eq : e.name = c.name
  origin_eq : ∃ form partOf, c.origin = .declaration .wholeText form partOf ∧
    e.origin = .declaration .window form partOf
  fields_eq : ∃ rest, c.origin.fields = ("chunk_method", .string "regex-based") :: rest ∧
    e.origin.fields = ("chunk_method", .string "regex-streaming") :: rest

theorem Chunk.streamedAs_withReach {c : Chunk} {form : DeclarationForm} {partOf : Option Span}
    (h : c.origin = .declaration .wholeText form partOf) : c.StreamedAs (c.withReach .window) := by
  have hwindow : (c.withReach .window).origin = .declaration .window form partOf := by
    change c.origin.withReach .window = _
    rw [h]
    rfl
  refine ⟨rfl, rfl, rfl, rfl, ⟨form, partOf, h, hwindow⟩, ?_⟩
  rw [h, hwindow]
  exact ⟨_, rfl, rfl⟩

namespace DeclarationChunker

open Declaration

variable {m least : Int} {d : Declaration} {part : List Chunk} {c : Chunk}

theorem cutDeclaration_reach (ix : LineIndex) (reach : Reach) (m least : Int) (d : Declaration) :
    cutDeclaration ix reach m least d =
      (cutDeclaration ix .wholeText m least d).map (List.map (·.withReach reach)) := by
  rw [cutDeclaration, cutDeclaration]
  split
  · cases d.span.pieces m with
    | error fault => rfl
    | ok pieces =>
        change Except.ok _ = Except.ok _
        rw [List.map_map]
        rfl
  · split
    · rfl
    · rfl

theorem declarationChunks_reach (reach : Reach) (m least : Int) (t : Text) :
    declarationChunks reach m least t =
      (declarationChunks .wholeText m least t).map (List.map (·.withReach reach)) := by
  have hcut : cutDeclaration (LineIndex.ofText t) reach m least = fun d =>
      (cutDeclaration (LineIndex.ofText t) .wholeText m least d).map (List.map (·.withReach reach)) :=
    funext (cutDeclaration_reach _ reach m least)
  rw [declarationChunks, declarationChunks, hcut, mapM_map_eq]
  cases (allOf t).mapM (cutDeclaration (LineIndex.ofText t) .wholeText m least) with
  | error fault => rfl
  | ok parts => exact congrArg Except.ok List.map_flatten.symm

theorem declarationChunks_nil (reach : Reach) (m least : Int) :
    declarationChunks reach m least [] = .ok [] := by
  have hnone : allOf [] = [] := by
    apply List.eq_nil_iff_forall_not_mem.mpr
    intro d hd
    exact absurd (in_of_mem_allOf hd).stop_lt (Nat.not_lt_zero _)
  rw [declarationChunks, hnone]
  rfl

theorem Makes.origin (h : Makes t m least d part) (hc : c ∈ part) :
    ∃ form partOf, c.origin = .declaration .wholeText form partOf := by
  cases h with
  | pieces hlong hspans hpieces => exact ⟨_, _, (hpieces c hc).origin_eq⟩
  | whole hshort hkept =>
      rw [List.mem_singleton.mp hc]
      exact ⟨_, _, rfl⟩
  | nothing hshort hdropped => cases hc

theorem chunkSource_of_length_le {k : DeclarationChunker} (o : Options) (htext : content.text = .ok t)
    (hwindow : 0 ≤ k.windowOverlap ∧ k.windowOverlap < k.windowSize) (hfits : t.length ≤ k.windowSize) :
    k.chunkSource (.ok content) o =
      .ofExcept (declarationChunks .window (maxLines o) (minLines o) t) :=
  SlidingWindow.ofSource_of_length_le htext hwindow hfits rfl fun hnil =>
    hnil ▸ declarationChunks_nil .window _ _

theorem chunk_of_ne_nil {o : Options} {chunks : List Chunk} (hne : chunks ≠ [])
    (h : declarationChunks .wholeText (maxLines o) (minLines o) t = .ok chunks) :
    chunk t o = .ok chunks := by
  obtain ⟨c, cs, rfl⟩ := List.exists_cons_of_ne_nil hne
  rw [chunk, h]

theorem chunk_of_nil {o : Options}
    (h : declarationChunks .wholeText (maxLines o) (minLines o) t = .ok []) :
    chunk t o = LineChunks.ofText t (maxLines o) (o.overlap.getD 0) := by
  rw [chunk, h]

theorem chunkSource_as_whole_text {k : DeclarationChunker} (o : Options) (htext : content.text = .ok t)
    (hwindow : 0 ≤ k.windowOverlap ∧ k.windowOverlap < k.windowSize) (hfits : t.length ≤ k.windowSize)
    (hmax : 1 ≤ maxLines o) (hoverlap : ∀ v, o.overlap = some v → 0 ≤ v ∧ v < maxLines o) :
    ∃ chunks streamed, chunk t o = .ok chunks ∧ k.chunkSource (.ok content) o = .ofChunks streamed ∧
      ((∃ d ∈ allOf t, maxLines o < d.span.size ∨ minLines o ≤ d.span.size) ∧
        chunks ≠ [] ∧ List.Forall₂ Chunk.StreamedAs chunks streamed ∨
      (¬ ∃ d ∈ allOf t, maxLines o < d.span.size ∨ minLines o ≤ d.span.size) ∧
        LineChunks.ofText t (maxLines o) (o.overlap.getD 0) = .ok chunks ∧ streamed = []) := by
  obtain ⟨parts, hchunks, hparts⟩ := exists_makes_allOf t (minLines o) hmax
  have hsource : k.chunkSource (.ok content) o =
      .ofChunks (parts.flatten.map (·.withReach .window)) := by
    rw [chunkSource_of_length_le o htext hwindow hfits, declarationChunks_reach, hchunks]
    rfl
  by_cases hlong : ∃ d ∈ allOf t, maxLines o < d.span.size ∨ minLines o ≤ d.span.size
  · have hne := (flatten_ne_nil_iff hparts).mpr hlong
    refine ⟨parts.flatten, _, chunk_of_ne_nil hne hchunks, hsource, .inl ⟨hlong, hne, ?_⟩⟩
    apply List.forall₂_map_right_iff.mpr
    apply List.forall₂_same.mpr
    intro c hc
    obtain ⟨d, -, part, hpart, hmem⟩ := exists_madeOf hparts hc
    obtain ⟨form, partOf, horigin⟩ := hpart.origin hmem
    exact Chunk.streamedAs_withReach horigin
  · have hnil : parts.flatten = [] := by
      by_contra hne
      exact hlong ((flatten_ne_nil_iff hparts).mp hne)
    rw [hnil] at hchunks hsource
    obtain ⟨chunks, hwindows⟩ := LineChunks.exists_ofText t hmax
      (Options.overlap_bounds hoverlap ⟨Int.le_refl 0, hmax⟩)
    exact ⟨chunks, [], (chunk_of_nil hchunks).trans hwindows, hsource, .inr ⟨hlong, hwindows, rfl⟩⟩

def filledWindow : DeclarationChunker :=
  ⟨27, 5⟩

theorem chunkSource_as_whole_text_shortBody :
    Content.text (.bytes (String.ofList shortBody).toUTF8) = .ok shortBody ∧
      (shortBody.length : Int) = filledWindow.windowSize ∧
      (0 ≤ filledWindow.windowOverlap ∧ filledWindow.windowOverlap < filledWindow.windowSize) ∧
      1 ≤ maxLines halves ∧ (∀ v, halves.overlap = some v → 0 ≤ v ∧ v < maxLines halves) ∧
      ∃ chunks streamed, chunk shortBody halves = .ok chunks ∧
        filledWindow.chunkSource (.ok (.bytes (String.ofList shortBody).toUTF8)) halves =
          .ofChunks streamed ∧
        chunks ≠ [] ∧ List.Forall₂ Chunk.StreamedAs chunks streamed := by
  have htext : Content.text (.bytes (String.ofList shortBody).toUTF8) = .ok shortBody := by
    decide +kernel
  have hfilled : (shortBody.length : Int) = filledWindow.windowSize := by decide
  have hwindow : 0 ≤ filledWindow.windowOverlap ∧
      filledWindow.windowOverlap < filledWindow.windowSize := by decide
  have hmax : 1 ≤ maxLines halves := by decide
  have hoverlap : ∀ v, halves.overlap = some v → 0 ≤ v ∧ v < maxLines halves := nofun
  have hlong : ∃ d ∈ allOf shortBody, maxLines halves < d.span.size ∨ minLines halves ≤ d.span.size := by
    decide +kernel
  refine ⟨htext, hfilled, hwindow, hmax, hoverlap, ?_⟩
  obtain ⟨chunks, streamed, hchunks, hstreamed, ⟨-, hne, hsame⟩ | ⟨hnone, -⟩⟩ :=
    chunkSource_as_whole_text halves htext hwindow (Int.le_of_eq hfilled) hmax hoverlap
  · exact ⟨chunks, streamed, hchunks, hstreamed, hne, hsame⟩
  · exact absurd hlong hnone

end DeclarationChunker

end Chunkwise
