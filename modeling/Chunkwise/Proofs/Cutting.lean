import Chunkwise.BoundaryChunks.Sweep
import Chunkwise.Proofs.Binary64
import Chunkwise.Proofs.Declaration
import Chunkwise.Proofs.Markdown

namespace Chunkwise

open Text

namespace Span

variable {s : Span} {width : Nat} {ps : List Span} {above bottom : Nat} {t : Text}

structure Divided (s : Span) (width : Int) (ps : List Span) : Prop where
  count : (ps.length : Int) = ⌈(s.size / width : Rat)⌉
  tile : Tile (s.first - 1) ps s.last
  full : ∀ p ∈ ps.dropLast, p.size = width
  rest : ∀ p ∈ ps.getLast?, 1 ≤ p.size ∧ p.size ≤ width

namespace CutInto

theorem tile_drop (hcut : s.CutInto width ps) (hwidth : 0 < width)
    (hlen : ps.length = (s.size + width - 1) / width) (k : Nat) (hk : k ≤ ps.length) :
    Tile (min (s.first - 1 + k * width) s.last) (ps.drop k) s.last := by
  have hfirst := s.one_le_first
  have hlast := s.first_le_last
  -- on how many pieces are left
  induction hn : ps.length - k generalizing k with
  | zero =>
      obtain rfl : k = ps.length := by omega
      have hend : ¬ ps.length * width < s.size := by
        rw [← lt_ceil_iff hwidth, ← hlen]
        exact Nat.lt_irrefl _
      rw [size] at hend
      rw [List.drop_length, Nat.min_eq_right (by omega)]
      exact .nil _
  | succ n ih =>
      have hlt : k < ps.length := by omega
      have hin : k * width < s.size := by rwa [hlen, lt_ceil_iff hwidth] at hlt
      rw [size] at hin
      rw [List.drop_eq_getElem_cons hlt]
      have hrest := ih (k + 1) hlt (by omega)
      have hedge : min (s.first - 1 + (k + 1) * width) s.last = ps[k].last := by
        rw [hcut.last_eq k hlt, Nat.add_mul, Nat.one_mul]
        omega
      rw [hedge] at hrest
      refine .cons ?_ hrest
      rw [hcut.first_eq k hlt]
      omega

theorem size_of_not_last (hcut : s.CutInto width ps) (hwidth : 0 < width)
    (hlen : ps.length = (s.size + width - 1) / width) {i : Nat} (hi : i + 1 < ps.length) :
    ps[i].size = width := by
  have hin : (i + 1) * width < s.size := by rwa [hlen, lt_ceil_iff hwidth] at hi
  rw [size, Nat.add_mul, Nat.one_mul] at hin
  rw [size, hcut.last_eq i (by omega), hcut.first_eq i (by omega)]
  omega

theorem divided (hcut : s.CutInto width ps) (hwidth : 0 < width)
    (hlen : ps.length = (s.size + width - 1) / width) : s.Divided width ps := by
  refine ⟨?_, ?_, ?_, ?_⟩
  · rw [hlen, Int.cast_natCast, ceil_div_eq s.size_pos hwidth]
  · have htile := hcut.tile_drop hwidth hlen 0 (Nat.zero_le _)
    have := s.first_le_last
    rwa [Nat.zero_mul, Nat.min_eq_left (by omega)] at htile
  · intro p hp
    obtain ⟨i, hi, rfl⟩ := List.mem_iff_getElem.mp hp
    rw [List.length_dropLast] at hi
    rw [List.getElem_dropLast]
    exact congrArg _ (hcut.size_of_not_last hwidth hlen (by omega))
  · intro p hp
    have hmem : p ∈ ps := List.mem_of_getLast? hp
    exact ⟨p.size_pos, Int.ofNat_le.mpr (hcut.size_le hmem)⟩

end CutInto

theorem exists_divided (s : Span) {width : Int} (hpos : 1 ≤ width) (hle : width ≤ s.size) :
    ∃ ps, s.pieces width = .ok ps ∧ s.Divided width ps := by
  obtain ⟨w, rfl⟩ := Int.eq_ofNat_of_zero_le (Int.le_of_lt hpos)
  have hw : 0 < w := Int.natCast_pos.mp hpos
  obtain ⟨ps, hps, hlen, hcut⟩ := s.pieces_of_ceil hw (lt_shiftLeft_of_le s.size_pos hle)
  exact ⟨ps, hps, hcut.divided hw hlen⟩

theorem Tile.joinLines_quote (h : Tile above ps bottom) (hne : ps ≠ [])
    (hbottom : bottom ≤ t.lines.length) :
    joinLines (ps.map t.quote) = joinLines ((t.lines.drop above).take (bottom - above)) := by
  induction h with
  | nil => exact absurd rfl hne
  | @cons above bottom s ss hfirst hrest ih =>
      have hlast := s.first_le_last
      have hle := hrest.le
      have hquote : t.quote s = joinLines ((t.lines.drop above).take (s.last - above)) := by
        rw [quote, hfirst, Nat.add_sub_cancel, size]
        congr 2
        omega
      by_cases hss : ss = []
      · subst hss
        cases hrest
        simp [joinLines, hquote]
      · have hmore : s.last < bottom := by
          obtain ⟨u, hu⟩ := List.exists_mem_of_ne_nil ss hss
          have := hrest.bounds hu
          have := u.first_le_last
          omega
        have hsplit : bottom - above = (s.last - above) + (bottom - s.last) := by omega
        rw [List.map_cons, joinLines_cons (by simpa using hss), ih hss hbottom, hquote,
          ← joinLines_append (by simp; omega) (by simp; omega), hsplit, List.take_add, List.drop_drop,
          Nat.add_sub_cancel' (by omega)]

namespace Divided

variable {width : Int}

theorem ne_nil (hcut : s.Divided width ps) : ps ≠ [] := by
  have h₁ := s.one_le_first
  have h₂ := s.first_le_last
  obtain ⟨p, hp, -⟩ := hcut.tile.exists_mem (show s.first - 1 < s.last by omega) (Nat.le_refl _)
  exact List.ne_nil_of_mem hp

theorem size_le (hcut : s.Divided width ps) {p : Span} (hp : p ∈ ps) : p.size ≤ (width : Int) := by
  rcases List.eq_nil_or_concat' ps with rfl | ⟨front, last, rfl⟩
  · cases hp
  · rcases List.mem_append.mp hp with hp | hp
    · exact Int.le_of_eq (hcut.full p (by rwa [List.dropLast_concat]))
    · obtain rfl := List.mem_singleton.mp hp
      exact (hcut.rest p (by simp)).2

theorem last_le (hcut : s.Divided width ps) {p : Span} (hp : p ∈ ps) : p.last ≤ s.last :=
  (hcut.tile.bounds hp).2

theorem joinLines_quote (hcut : s.Divided width ps) (hlines : s.last ≤ t.lines.length) :
    joinLines (ps.map t.quote) = t.quote s := by
  have h₁ := s.one_le_first
  have h₂ := s.first_le_last
  rw [hcut.tile.joinLines_quote hcut.ne_nil hlines, quote, size]
  congr 2
  omega

end Divided

end Span

theorem DeclarationChunker.text_pieceOf_eq_capped {t : Text} {reach : Reach} {d : Declaration}
    {p : Span} (hlines : p.last ≤ t.lines.length) :
    (pieceOf (LineIndex.ofText t) reach d p).text =
      Declaration.capped (t.quote p).length (t.quote p) := by
  have h₁ := p.one_le_first
  have h₂ := p.first_le_last
  obtain ⟨j, hj⟩ : ∃ j, p.first = j + 1 := ⟨p.first - 1, by omega⟩
  obtain ⟨k, hk⟩ : ∃ k, p.last = j + k + 1 := ⟨p.last - p.first, by omega⟩
  have hquote : t.quote p =
      (t.drop (t.lineStart j)).take (t.lineStart (j + k + 1) - 1 - t.lineStart j) := by
    rw [take_drop_lineStart (by omega), quote, Span.size, hj, hk]
    congr 2
    omega
  have hstart := lineStart_lt (t := t) (show j < j + k + 1 by omega) (by omega)
  have hstop := lineStart_le_length_succ (show j + k + 1 ≤ t.lines.length by omega)
  have hlength : (t.quote p).length = t.lineStart (j + k + 1) - 1 - t.lineStart j := by
    rw [hquote, List.length_take, List.length_drop]
    omega
  rw [text_pieceOf hj hk hlines, hlength, hquote, Declaration.capped_take (Nat.le_refl _)]

theorem DeclarationChunker.text_pieceOf_of_short {t : Text} {reach : Reach} {d : Declaration}
    {p : Span} (hlines : p.last ≤ t.lines.length)
    (hshort : (t.quote p).length ≤ Declaration.maxLength) :
    (pieceOf (LineIndex.ofText t) reach d p).text = t.quote p := by
  rw [text_pieceOf_eq_capped hlines, Declaration.capped, if_neg (Nat.not_lt.mpr hshort),
    List.take_length]

structure Restores (t : Text) (s : Span) (ps : List Span) (chunks : List Chunk) : Prop where
  spans : chunks.map (·.span) = ps
  text : joinLines (chunks.map (·.text)) = (LineIndex.ofText t).extract s.first s.last

section Restores

variable {t : Text} {s : Span} {maxLines minLines : Int} {ps : List Span}

theorem restores_map {α : Type} (f : α → Chunk) {items : List α} (hcut : s.Divided maxLines ps)
    (hlines : s.last ≤ t.lines.length) (hspans : items.map (fun a => (f a).span) = ps)
    (htext : ∀ a ∈ items, (f a).text = t.quote (f a).span) : Restores t s ps (items.map f) := by
  refine ⟨by rwa [List.map_map], ?_⟩
  rw [LineIndex.extract_span hlines, ← hcut.joinLines_quote hlines, ← hspans, List.map_map,
    List.map_map]
  exact congrArg joinLines (List.map_congr_left htext)

variable (hps : s.pieces maxLines = .ok ps) (hcut : s.Divided maxLines ps)
  (hlines : s.last ≤ t.lines.length)
include hps hcut hlines

open BoundaryChunks in
theorem exists_cutBoundary_restores (b : Boundary) (language : String) :
    ∃ parts, cutBoundary ⟨.ofText t, maxLines, minLines, language⟩ b s = .ok parts ∧
      Restores t s ps parts := by
  rw [cutBoundary, hps]
  refine ⟨_, rfl, restores_map _ hcut hlines ?_ ?_⟩
  · simp
  · rintro ⟨p, number⟩ hmem
    have hp : p ∈ ps := List.fst_mem_of_mem_zipIdx hmem
    exact LineIndex.extract_span (Nat.le_trans (hcut.last_le hp) hlines)

open DeclarationChunker in
theorem exists_cutDeclaration_restores (reach : Reach) {d : Declaration} (hd : d.span = s)
    (hlong : maxLines < s.size) :
    ∃ parts, cutDeclaration (.ofText t) reach maxLines minLines d = .ok parts ∧
      parts.map (·.span) = ps ∧
      ((∀ p ∈ ps, ((LineIndex.ofText t).extract p.first p.last).length ≤ Declaration.maxLength) →
        Restores t s ps parts) := by
  subst hd
  rw [cutDeclaration, if_pos hlong, hps]
  refine ⟨_, rfl, ?_, fun hshort => restores_map _ hcut hlines ?_ ?_⟩
  · simp [pieceOf, Function.comp_def]
  · simp [pieceOf]
  · intro p hp
    have hlast := Nat.le_trans (hcut.last_le hp) hlines
    have hlength := hshort p hp
    rw [LineIndex.extract_span hlast] at hlength
    exact text_pieceOf_of_short hlast hlength

open Markdown in
theorem exists_cutSection_restores {x : Section} (hx : x.span = s) :
    ∃ parts,
      cutSection (.ofText t) maxLines minLines x = .ok (if x.Kept t minLines then parts else []) ∧
      Restores t s ps parts := by
  subst hx
  refine ⟨ps.map (sectionChunk (.ofText t) x (1 < ps.length)), ?_, restores_map _ hcut hlines ?_ ?_⟩
  · rw [cutSection_eq, hps]
    split
    · rfl
    · rfl
  · simp [sectionChunk]
  · intro p hp
    exact LineIndex.extract_span (Nat.le_trans (hcut.last_le hp) hlines)

end Restores

open BoundaryChunks DeclarationChunker Markdown in
theorem cuts_agree (t : Text) (s : Span) (maxLines minLines : Int) (hmax : 1 ≤ maxLines)
    (hlong : maxLines < s.size) (hlines : s.last ≤ t.lines.length) :
    ∃ ps, s.Divided maxLines ps ∧
      (s.size < 2 ^ 53 → (ps.length : Int) = ⌈Binary64.nearest (s.size / maxLines)⌉) ∧
      (∀ b language, ∃ parts,
        cutBoundary ⟨.ofText t, maxLines, minLines, language⟩ b s = .ok parts ∧
        Restores t s ps parts) ∧
      (∀ reach d, d.span = s → ∃ parts,
        cutDeclaration (.ofText t) reach maxLines minLines d = .ok parts ∧
        parts.map (·.span) = ps ∧
        ((∀ p ∈ ps, ((LineIndex.ofText t).extract p.first p.last).length ≤ Declaration.maxLength) →
          Restores t s ps parts)) ∧
      ∀ x : Markdown.Section, x.span = s → ∃ parts,
        cutSection (.ofText t) maxLines minLines x = .ok (if x.Kept t minLines then parts else []) ∧
        Restores t s ps parts := by
  obtain ⟨ps, hps, hcut⟩ := s.exists_divided hmax (Int.le_of_lt hlong)
  refine ⟨ps, hcut, ?_, ?_, ?_, ?_⟩
  · intro hbits
    have hlen := Span.length_pieces hps (pieceCount_eq_ceil_nearest s.size_pos hbits hmax)
    have hpos := List.length_pos_iff.mpr hcut.ne_nil
    omega
  · intro b language
    exact exists_cutBoundary_restores hps hcut hlines b language
  · intro reach d hd
    exact exists_cutDeclaration_restores hps hcut hlines reach hd hlong
  · intro x hx
    exact exists_cutSection_restores hps hcut hlines hx

def spacedText : Text := "# A\n\nb\n\nc".toList

def spacedSection : Markdown.Section :=
  ⟨(Span.line 0).extendTo 5, 1, some "A"⟩

open Markdown in
theorem cuts_agree_spacedText :
    (1 : Int) ≤ 2 ∧ (2 : Int) < spacedSection.span.size ∧
      spacedSection.span.last ≤ spacedText.lines.length ∧
      ∃ ps parts, spacedSection.span.Divided 2 ps ∧ ps.length = 3 ∧
        cutSection (.ofText spacedText) 2 1 spacedSection = .ok parts ∧
        Restores spacedText spacedSection.span ps parts := by
  refine ⟨by decide, by decide, by decide, ?_⟩
  obtain ⟨ps, hcut, hcount, -, -, hsection⟩ :=
    cuts_agree spacedText spacedSection.span 2 1 (by decide) (by decide) (by decide)
  obtain ⟨parts, hparts, hrestores⟩ := hsection spacedSection rfl
  have hceil : ⌈Binary64.nearest (spacedSection.span.size / (2 : Int))⌉ = 3 := by decide +kernel
  have hkept : spacedSection.Kept spacedText 1 := by decide
  rw [if_pos hkept] at hparts
  exact ⟨ps, parts, hcut, Int.ofNat_inj.mp ((hcount (by decide)).trans hceil), hparts, hrestores⟩

end Chunkwise
