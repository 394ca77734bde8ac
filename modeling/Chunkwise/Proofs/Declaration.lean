import Chunkwise.Declaration.Chunker
import Chunkwise.Proofs.Excerpt
import Chunkwise.Proofs.Pattern
import Chunkwise.Proofs.Pieces
import Chunkwise.Proofs.SlidingWindow

namespace Chunkwise

namespace Declaration

variable {t : Text}

theorem closingBrace?_cons (depth i : Nat) (c : Char) :
    (c = '}' ∧ ∀ t, closingBrace? depth i (c :: t) = some i) ∨
      ∃ next, ∀ t, closingBrace? depth i (c :: t) = closingBrace? next (i + 1) t := by
  by_cases hopen : c = '{'
  · exact .inr ⟨depth + 1, fun t => by rw [closingBrace?, if_pos hopen]⟩
  by_cases hclose : c = '}'
  · by_cases hlast : depth = 1
    · exact .inl ⟨hclose, fun t => by simp [closingBrace?, hclose, hlast]⟩
    · exact .inr ⟨depth - 1, fun t => by simp [closingBrace?, hclose, hlast]⟩
  · exact .inr ⟨depth, fun t => by simp [closingBrace?, hopen, hclose]⟩

theorem closingBrace?_bounds {depth i j : Nat} (h : closingBrace? depth i t = some j) :
    i ≤ j ∧ j < i + t.length := by
  induction t generalizing depth i with
  | nil => cases h
  | cons c t ih =>
      rw [List.length_cons]
      rcases closingBrace?_cons depth i c with ⟨-, hend⟩ | ⟨next, hnext⟩
      · rw [hend] at h
        cases h
        omega
      · rw [hnext] at h
        have := ih h
        omega

theorem extent?_lt {ending : Ending} {ahead : Bool} {i : Nat} (h : extent? ending ahead t = some i) :
    i < t.length := by
  cases ending with
  | terminator =>
      obtain ⟨hlt, -⟩ := List.findIdx?_eq_some_iff_getElem.mp h
      exact hlt
  | closingBrace =>
      have := closingBrace?_bounds h
      omega

structure In (t : Text) (d : Declaration) : Prop where
  start_le_stop : d.start ≤ d.stop
  stop_lt : d.stop < t.length
  first_eq : d.span.first = (t.take d.start).count '\n' + 1
  last_eq : d.span.last = (t.take d.stop).count '\n' + 1
  text_eq : d.text = capped (d.stop + 1 - d.start) (t.drop d.start)

theorem In.last_le {d : Declaration} (hd : In t d) : d.span.last ≤ t.lines.length := by
  rw [hd.last_eq]
  exact (Text.lineStart_count hd.stop_lt).1

theorem in_ofHeader {h : Header} (semicolons : Nat) (hh : h.found.StartsIn 0 t) :
    In t (ofHeader (LineIndex.ofText t) semicolons h) := by
  obtain ⟨start, hlt, hstart, hrest⟩ := hh
  obtain rfl : start = h.start := by
    rw [Header.start]
    omega
  have hstop : h.start ≤ (ofHeader (LineIndex.ofText t) semicolons h).stop ∧
      (ofHeader (LineIndex.ofText t) semicolons h).stop < t.length := by
    simp only [ofHeader, hrest]
    split
    · next i hi =>
        have := extent?_lt hi
        rw [List.length_drop] at this
        change h.start ≤ h.start + i ∧ h.start + i < t.length
        omega
    · change h.start ≤ t.length - 1 ∧ t.length - 1 < t.length
      omega
  have hmono : (t.take h.start).count '\n' ≤
      (t.take (ofHeader (LineIndex.ofText t) semicolons h).stop).count '\n' :=
    (List.take_sublist_take_left hstop.1).count_le _
  have hfirst : (LineIndex.ofText t).lineOf h.start = (t.take h.start).count '\n' + 1 :=
    LineIndex.lineOf_ofText (Nat.lt_of_le_of_lt hstop.1 hstop.2)
  have hlast := LineIndex.lineOf_ofText hstop.2
  refine ⟨hstop.1, hstop.2, ?_, ?_, ?_⟩
  · change (LineIndex.ofText t).lineOf h.start - 1 + 1 = _
    rw [hfirst]
    rfl
  · change max ((LineIndex.ofText t).lineOf h.start - 1 + 1)
      ((LineIndex.ofText t).lineOf (ofHeader (LineIndex.ofText t) semicolons h).stop) = _
    rw [hfirst, hlast]
    omega
  · exact congrArg (capped _) hrest

theorem mem_headersOf_iff {h : Header} : h ∈ headersOf t ↔
    ∃ pattern, ((h.form, pattern), h.rank) ∈ headers.zipIdx ∧ h.found ∈ pattern.findAll t := by
  rw [headersOf, List.mem_mergeSort, List.mem_flatMap]
  constructor
  · rintro ⟨⟨⟨form, pattern⟩, rank⟩, hform, hfound⟩
    obtain ⟨m, hm, rfl⟩ := List.mem_map.mp hfound
    exact ⟨pattern, hform, hm⟩
  · rintro ⟨pattern, hform, hfound⟩
    exact ⟨_, hform, List.mem_map.mpr ⟨h.found, hfound, rfl⟩⟩

theorem startsIn_of_mem_headersOf {h : Header} (hh : h ∈ headersOf t) : h.found.StartsIn 0 t := by
  obtain ⟨pattern, -, hfound⟩ := mem_headersOf_iff.mp hh
  exact Pattern.startsIn_of_mem_findAll hfound

def kept (ix : LineIndex) (semicolons free : Nat) : List Header → List Declaration
  | [] => []
  | h :: hs =>
      if h.start < free then kept ix semicolons free hs
      else ofHeader ix semicolons h :: kept ix semicolons ((ofHeader ix semicolons h).stop + 1) hs

section Kept

variable {ix : LineIndex} {semicolons free : Nat} {hs : List Header}

theorem toList_keepFrom (found : Array Declaration) :
    (keepFrom ix semicolons found free hs).toList = found.toList ++ kept ix semicolons free hs := by
  induction hs generalizing found free with
  | nil => simp [keepFrom, kept]
  | cons h hs ih =>
      rw [keepFrom, kept]
      split
      · exact ih found
      · rw [ih, Array.toList_push, List.append_assoc, List.singleton_append]

theorem allOf_eq_kept (t : Text) :
    allOf t = kept (LineIndex.ofText t) (semicolonsEnd t) 0 (headersOf t) := by
  rw [allOf, toList_keepFrom, List.nil_append]

theorem exists_header_of_mem_kept {d : Declaration} (hd : d ∈ kept ix semicolons free hs) :
    ∃ h ∈ hs, d = ofHeader ix semicolons h := by
  induction hs generalizing free with
  | nil => cases hd
  | cons h hs ih =>
      rw [List.exists_mem_cons_iff]
      rw [kept] at hd
      split at hd
      · exact .inr (ih hd)
      · exact (List.mem_cons.mp hd).imp id ih

end Kept

theorem exists_header_of_mem_allOf {d : Declaration} (hd : d ∈ allOf t) :
    ∃ h ∈ headersOf t, d = ofHeader (LineIndex.ofText t) (semicolonsEnd t) h :=
  exists_header_of_mem_kept (allOf_eq_kept t ▸ hd)

theorem in_of_mem_allOf {d : Declaration} (h : d ∈ allOf t) : In t d := by
  obtain ⟨header, hheader, rfl⟩ := exists_header_of_mem_allOf h
  exact in_ofHeader _ (startsIn_of_mem_headersOf hheader)

end Declaration

namespace DeclarationChunker

open Text

variable {t : Text} {d : Declaration} {reach : Reach}

theorem excerpt_chunkOf (hd : d.In t) :
    Chunk.Excerpt t (chunkOf reach d) d.start (d.stop + 1) := by
  obtain ⟨hle, hlt, hfirst, hlast, htext⟩ := id hd
  obtain ⟨-, hstart, -⟩ := lineStart_count (Nat.lt_of_le_of_lt hle hlt)
  obtain ⟨-, -, hstop⟩ := lineStart_count hlt
  refine ⟨hd.last_le, ?_, Nat.le_succ_of_le hle, hlt, ?_, htext⟩
  · change t.lineStart (d.span.first - 1) ≤ _
    rw [hfirst]
    exact hstart
  · change _ ≤ t.lineStart d.span.last
    rw [hlast]
    exact hstop

theorem text_pieceOf {piece : Span} {j k : Nat} (hfirst : piece.first = j + 1) (hlast : piece.last = k + 1)
    (hlines : piece.last ≤ t.lines.length) :
    (pieceOf (LineIndex.ofText t) reach d piece).text =
      Declaration.capped (t.lineStart (k + 1) - 1 - t.lineStart j) (t.drop (t.lineStart j)) := by
  have hle := piece.first_le_last
  have hstart := lineStart_lt_length (t := t) (k := j) (by omega)
  change Declaration.capped _ _ = _
  rw [hfirst, hlast, LineIndex.lineEnd_ofText (by omega), LineIndex.restFrom_ofText (by omega),
    Int.natCast_succ, LineIndex.offsetOf_ofText, Nat.min_eq_left (by omega)]

theorem excerpt_pieceOf {piece : Span} (hlines : piece.last ≤ t.lines.length) :
    ∃ a b, Chunk.Excerpt t (pieceOf (LineIndex.ofText t) reach d piece) a b := by
  have h₁ := piece.one_le_first
  have h₂ := piece.first_le_last
  obtain ⟨j, hj⟩ : ∃ j, piece.first = j + 1 := ⟨piece.first - 1, by omega⟩
  obtain ⟨k, hk⟩ : ∃ k, piece.last = k + 1 := ⟨piece.last - 1, by omega⟩
  have hstart : t.lineStart j < t.lineStart (k + 1) := lineStart_lt (by omega) (by omega)
  have hlast := lineStart_le_length_succ (show k + 1 ≤ t.lines.length by omega)
  refine ⟨t.lineStart j, t.lineStart (k + 1) - 1, ⟨hlines, ?_, ?_, ?_, ?_, text_pieceOf hj hk hlines⟩⟩
  · change t.lineStart (piece.first - 1) ≤ _
    rw [hj]
    exact Nat.le_refl _
  · omega
  · omega
  · change _ ≤ t.lineStart piece.last
    rw [hk]
    exact Nat.sub_le _ _

theorem excerpt_of_mem_cutDeclaration {maxLines minLines : Int} {chunks : List Chunk} {c : Chunk}
    (hmax : 1 ≤ maxLines) (hd : d.In t)
    (h : cutDeclaration (LineIndex.ofText t) reach maxLines minLines d = .ok chunks)
    (hc : c ∈ chunks) : ∃ a b, c.Excerpt t a b := by
  rw [cutDeclaration] at h
  split at h
  · obtain ⟨pieces, hpieces, hcut⟩ := Span.exists_pieces d.span hmax
    rw [hpieces] at h
    cases h
    obtain ⟨piece, hpiece, rfl⟩ := List.mem_map.mp hc
    exact excerpt_pieceOf (Nat.le_trans (hcut.last_le hpiece) hd.last_le)
  · split at h
    · cases h
      rw [List.mem_singleton.mp hc]
      exact ⟨_, _, excerpt_chunkOf hd⟩
    · cases h
      cases hc

theorem exists_cutDeclaration (ix : LineIndex) (reach : Reach) {maxLines : Int} (minLines : Int)
    (d : Declaration) (hmax : 1 ≤ maxLines) :
    ∃ chunks, cutDeclaration ix reach maxLines minLines d = .ok chunks := by
  rw [cutDeclaration]
  split
  · obtain ⟨pieces, hpieces, -⟩ := Span.exists_pieces d.span hmax
    rw [hpieces]
    exact ⟨_, rfl⟩
  · split
    · exact ⟨_, rfl⟩
    · exact ⟨_, rfl⟩

theorem exists_declarationChunks (reach : Reach) {maxLines : Int} (minLines : Int) (t : Text)
    (hmax : 1 ≤ maxLines) : ∃ chunks, declarationChunks reach maxLines minLines t = .ok chunks := by
  obtain ⟨parts, hparts⟩ := exists_mapM_ok (Declaration.allOf t) fun d _ =>
    exists_cutDeclaration (LineIndex.ofText t) reach minLines d hmax
  rw [declarationChunks, hparts]
  exact ⟨_, rfl⟩

theorem excerpt_of_mem_declarationChunks {maxLines minLines : Int} {chunks : List Chunk} {c : Chunk}
    (hmax : 1 ≤ maxLines) (h : declarationChunks reach maxLines minLines t = .ok chunks)
    (hc : c ∈ chunks) : ∃ a b, c.Excerpt t a b := by
  obtain ⟨d, hd, part, hcut, hpart⟩ := (mem_flatten_mapM_iff h).mp hc
  exact excerpt_of_mem_cutDeclaration hmax (Declaration.in_of_mem_allOf hd) hcut hpart

theorem exists_cutDeclaration_ne_nil (ix : LineIndex) (reach : Reach) {maxLines minLines : Int}
    (hmax : 1 ≤ maxLines) (hlong : minLines ≤ d.span.size) :
    ∃ chunks, cutDeclaration ix reach maxLines minLines d = .ok chunks ∧ chunks ≠ [] := by
  rw [cutDeclaration]
  split
  · next hcut =>
      obtain ⟨pieces, hpieces, -, hne⟩ := Span.exists_pieces_ne_nil hmax (Int.le_of_lt hcut)
      rw [hpieces]
      exact ⟨_, rfl, fun h => hne (List.map_eq_nil_iff.mp h)⟩
  · exact ⟨_, rfl, List.cons_ne_nil _ _⟩

theorem exists_feed {k : DeclarationChunker} {o : Options} (hmax : 1 ≤ maxLines o) :
    ∃ found : Text → List Chunk,
      (∀ u, declarationChunks .window (maxLines o) (minLines o) u = .ok (found u)) ∧
      ∀ source s t, Stride.ofChars k.windowSize k.windowOverlap = .ok s → source.text = .ok t →
        k.chunkSource source o = .ofChunks ((s.read t).flatMap fun w =>
          (found w.items).map (·.shift ((t.take w.before).count '\n'))) := by
  have hprocess := fun u => exists_declarationChunks .window (minLines o) u hmax
  choose found hfound using hprocess
  refine ⟨found, hfound, fun source s t hs htext => ?_⟩
  simp only [chunkSource, SlidingWindow.ofSource, hs, htext]
  apply SlidingWindow.feed_of_ok
  intro k u
  rw [hfound]
  rfl

theorem chunkSource_ne_nil {k : DeclarationChunker} {source : Source} {o : Options} {s : Stride}
    {w : Stride.Window Char} (hs : Stride.ofChars k.windowSize k.windowOverlap = .ok s)
    (htext : source.text = .ok t) (hmax : 1 ≤ maxLines o) (hw : w ∈ s.read t)
    (hd : d ∈ Declaration.allOf w.items) (hlong : minLines o ≤ d.span.size) :
    (k.chunkSource source o).chunks ≠ [] := by
  obtain ⟨found, hfound, hfeed⟩ := exists_feed (k := k) hmax
  obtain ⟨part, hpart, hne⟩ :=
    exists_cutDeclaration_ne_nil (LineIndex.ofText w.items) .window hmax hlong
  obtain ⟨c, hc⟩ := List.exists_mem_of_ne_nil part hne
  have hmem : c ∈ found w.items := (mem_flatten_mapM_iff (hfound w.items)).mpr ⟨d, hd, part, hpart, hc⟩
  rw [hfeed source s t hs htext]
  exact List.ne_nil_of_mem (List.mem_flatMap.mpr ⟨w, hw, List.mem_map_of_mem hmem⟩)

theorem excerpt_of_mem_chunkSource {k : DeclarationChunker} {source : Source} {o : Options}
    {c : Chunk} (hmax : 1 ≤ maxLines o) (hc : c ∈ (k.chunkSource source o).chunks) :
    ∃ t, source.text = .ok t ∧ ∃ a b, c.Excerpt t a b := by
  obtain ⟨found, hfound, hfeed⟩ := exists_feed (k := k) hmax
  cases hs : Stride.ofChars k.windowSize k.windowOverlap with
  | error fault =>
      rw [chunkSource, SlidingWindow.ofSource, hs] at hc
      cases hc
  | ok s =>
      cases htext : source.text with
      | error fault =>
          simp only [chunkSource, SlidingWindow.ofSource, hs, htext] at hc
          cases hc
      | ok t =>
          rw [hfeed source s t hs htext] at hc
          obtain ⟨w, hw, hc⟩ := List.mem_flatMap.mp hc
          obtain ⟨d, hd, rfl⟩ := List.mem_map.mp hc
          obtain ⟨a, b, hexcerpt⟩ := excerpt_of_mem_declarationChunks hmax (hfound w.items) hd
          rw [(s.mem_read hw).2] at hexcerpt
          exact ⟨t, rfl, _, _, hexcerpt.shift⟩

end DeclarationChunker

end Chunkwise
