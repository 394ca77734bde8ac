import Chunkwise.Proofs.Markdown.Sections

namespace Chunkwise

namespace Markdown

variable {t line opening opening' : Text} {n i : Nat} {s u : Span} {c d : Chunk} {x : Section}

structure Fenced (t : Text) (s : Span) (opening : Text) : Prop where
  opened : ∃ k, s.first = k + 2 ∧ t.lines[k]? = some opening ∧ (fence? opening).isSome = true ∧
    Even (fencesAbove t k)
  plain : ∀ i line, i + 1 ∈ s → t.lines[i]? = some line → fence? line = none
  last_le : s.last ≤ t.lines.length
  closed : ∀ line, t.lines[s.last]? = some line → (fence? line).isSome = true

structure BlockOf (t opening : Text) (c : Chunk) : Prop where
  fenced : Fenced t c.span opening
  text_eq : c.text = (LineIndex.ofText t).extract c.span.first c.span.last
  kind_eq : c.kind = .codeBlock
  name_eq : c.name = none
  origin_eq : c.origin = .codeBlock (infoWord opening)

def Inside (t : Text) (i : Nat) : Prop :=
  ∃ line, t.lines[i]? = some line ∧ fence? line = none ∧ Odd (fencesAbove t i)

theorem Inside.lt_length (h : Inside t i) : i < t.lines.length := by
  obtain ⟨line, hline, -⟩ := h
  exact (List.getElem?_eq_some_iff.mp hline).1

theorem not_inside_of_fence (hline : t.lines[n]? = some line) (hfence : (fence? line).isSome = true) :
    ¬ Inside t n := by
  rintro ⟨line', hline', hnone, -⟩
  obtain rfl := Option.some.inj (hline.symm.trans hline')
  rw [hnone] at hfence
  cases hfence

theorem fencesAbove_add_of_plain {k : Nat} (d : Nat)
    (h : ∀ i line, k ≤ i → i < k + d → t.lines[i]? = some line → fence? line = none) :
    fencesAbove t (k + d) = fencesAbove t k := by
  induction d with
  | zero => rfl
  | succ d ih =>
      have hbelow := ih fun i line hle hlt => h i line hle (by omega)
      rw [← hbelow, ← Nat.add_assoc]
      cases hline : t.lines[k + d]? with
      | none =>
          have hlen := List.getElem?_eq_none_iff.mp hline
          rw [fencesAbove, fencesAbove, List.take_of_length_le hlen,
            List.take_of_length_le (Nat.le_succ_of_le hlen)]
      | some line =>
          exact fencesAbove_succ_of_none hline (h _ line (Nat.le_add_right k d) (by omega) hline)

namespace Fenced

theorem inside (h : Fenced t s opening) (hi : i + 1 ∈ s) : Inside t i := by
  obtain ⟨k, hfirst, hline, hfence, heven⟩ := h.opened
  obtain ⟨hle, hlt⟩ := hi
  have hlen : i < t.lines.length := Nat.lt_of_lt_of_le hlt h.last_le
  refine ⟨t.lines[i], List.getElem?_eq_getElem hlen, ?_, ?_⟩
  · exact h.plain i _ ⟨hle, hlt⟩ (List.getElem?_eq_getElem hlen)
  · obtain ⟨d, rfl⟩ : ∃ d, i = k + 1 + d := ⟨i - (k + 1), by omega⟩
    rw [fencesAbove_add_of_plain d, fencesAbove_succ_of_fence hline hfence, Nat.odd_add_one,
      Nat.not_odd_iff_even]
    · exact heven
    · intro j line hj hj' hline
      exact h.plain j line ⟨by omega, by omega⟩ hline

theorem opened_unique (h : Fenced t s opening) (h' : Fenced t u opening') (hi : i + 1 ∈ s)
    (hi' : i + 1 ∈ u) : s.first = u.first ∧ opening = opening' := by
  obtain ⟨k, hfirst, hline, hfence, -⟩ := h.opened
  obtain ⟨k', hfirst', hline', hfence', -⟩ := h'.opened
  obtain ⟨hle, hlt⟩ := hi
  obtain ⟨hle', hlt'⟩ := hi'
  -- both fences are the last one above the shared line
  have hkk : k = k' := by
    rcases Nat.lt_trichotomy k k' with hk | hk | hk
    · have hplain := h.plain k' _ ⟨by omega, by omega⟩ hline'
      rw [hplain] at hfence'
      cases hfence'
    · exact hk
    · have hplain := h'.plain k _ ⟨by omega, by omega⟩ hline
      rw [hplain] at hfence
      cases hfence
  subst hkk
  exact ⟨by omega, Option.some.inj (hline.symm.trans hline')⟩

theorem last_le_of_mem (h : Fenced t s opening) (h' : Fenced t u opening') (hi : i + 1 ∈ s)
    (hi' : i + 1 ∈ u) : u.last ≤ s.last := by
  by_contra hlt
  obtain ⟨hle, hle'⟩ := hi
  obtain ⟨hle₂, hle₂'⟩ := hi'
  have hlen : s.last < t.lines.length := by
    have := h'.last_le
    omega
  have hline := List.getElem?_eq_getElem hlen
  have hplain := h'.plain s.last _ ⟨by omega, by omega⟩ hline
  have hfence := h.closed _ hline
  rw [hplain] at hfence
  cases hfence

theorem unique (h : Fenced t s opening) (h' : Fenced t u opening') (hi : i + 1 ∈ s)
    (hi' : i + 1 ∈ u) : s = u ∧ opening = opening' := by
  obtain ⟨hfirst, hopening⟩ := h.opened_unique h' hi hi'
  exact ⟨Span.ext hfirst (Nat.le_antisymm (h'.last_le_of_mem h hi' hi) (h.last_le_of_mem h' hi hi')),
    hopening⟩

end Fenced

theorem BlockOf.unique (h : BlockOf t opening c) (h' : BlockOf t opening' d) (hi : i + 1 ∈ c.span)
    (hi' : i + 1 ∈ d.span) : c = d := by
  obtain ⟨hspan, rfl⟩ := h.fenced.unique h'.fenced hi hi'
  have htext : c.text = d.text := by rw [h.text_eq, h'.text_eq, hspan]
  have hkind : c.kind = d.kind := h.kind_eq.trans h'.kind_eq.symm
  have hname : c.name = d.name := h.name_eq.trans h'.name_eq.symm
  have horigin : c.origin = d.origin := h.origin_eq.trans h'.origin_eq.symm
  cases c
  cases d
  rw [Chunk.mk.injEq]
  exact ⟨htext, hspan, hkind, hname, horigin⟩

structure OpenBlock.Traces (t : Text) (n : Nat) (b : OpenBlock) : Prop where
  opened : ∃ k opening, b.above = k + 1 ∧ t.lines[k]? = some opening ∧
    fence? opening = some ⟨b.language⟩ ∧ Even (fencesAbove t k)
  plain : ∀ i line, b.above ≤ i → i < n → t.lines[i]? = some line → fence? line = none

structure Settles (t : Text) (n : Nat) (cs : List Chunk) : Prop where
  blocks : ∀ c ∈ cs, ∃ opening, BlockOf t opening c
  last_le : ∀ c ∈ cs, c.span.last ≤ n
  pairwise : cs.Pairwise fun c d => c.span.last < d.span.first
  covers : ∀ i < n, Inside t i → ∃ c ∈ cs, i + 1 ∈ c.span

namespace Settles

variable {cs : List Chunk}

theorem succ (h : Settles t n cs) (hout : ¬ Inside t n) : Settles t (n + 1) cs where
  blocks := h.blocks
  last_le := fun c hc => Nat.le_succ_of_le (h.last_le c hc)
  pairwise := h.pairwise
  covers := by
    intro i hi hinside
    rcases Nat.lt_succ_iff_lt_or_eq.mp hi with hi | rfl
    · exact h.covers i hi hinside
    · exact absurd hinside hout

theorem concat (h : Settles t i cs) (hblock : BlockOf t opening c) (hfirst : c.span.first = i + 1) :
    Settles t c.span.last (cs ++ [c]) where
  blocks := by
    intro d hd
    rcases List.mem_append.mp hd with hd | hd
    · exact h.blocks d hd
    · rw [List.mem_singleton.mp hd]
      exact ⟨opening, hblock⟩
  last_le := by
    have hle := c.span.first_le_last
    intro d hd
    rcases List.mem_append.mp hd with hd | hd
    · have := h.last_le d hd
      omega
    · rw [List.mem_singleton.mp hd]
  pairwise := by
    refine List.pairwise_append.mpr ⟨h.pairwise, List.pairwise_singleton _ _, fun d hd e he => ?_⟩
    rw [List.mem_singleton.mp he]
    have := h.last_le d hd
    omega
  covers := by
    intro j hj hinside
    by_cases hji : j < i
    · obtain ⟨d, hd, hmem⟩ := h.covers j hji hinside
      exact ⟨d, List.mem_append_left _ hd, hmem⟩
    · exact ⟨c, List.mem_append_right _ List.mem_cons_self, by omega, hj⟩

end Settles

namespace OpenBlock

variable {b : OpenBlock}

theorem Traces.blockOf (h : b.Traces t n) (habove : b.above + b.lines.length = n)
    (hcode : IsCodeBlock t c) (hend : ∀ line, t.lines[n]? = some line → (fence? line).isSome = true)
    (hchunk : b.chunk? = some c) :
    ∃ opening, BlockOf t opening c ∧ c.span.first = b.above + 1 ∧ c.span.last = n := by
  obtain ⟨k, opening, hopened, hline, hfence, heven⟩ := h.opened
  have hword : b.language = infoWord opening := by
    rw [fence?_eq (Text.newline_not_mem_of_mem_lines (List.mem_of_getElem? hline))] at hfence
    split at hfence
    · exact (Fence.mk.inj (Option.some.inj hfence)).symm
    · cases hfence
  rw [OpenBlock.chunk?] at hchunk
  split at hchunk
  · cases hchunk
    refine ⟨opening, ⟨⟨?_, ?_, hcode.quotes.1, ?_⟩, ?_, rfl, rfl, ?_⟩, rfl, habove⟩
    · exact ⟨k, congrArg (· + 1) hopened, hline, Option.isSome_of_eq_some hfence, heven⟩
    · rintro i line ⟨hle, hlt⟩ hi
      exact h.plain i line (Nat.le_of_succ_le_succ hle) (habove ▸ hlt) hi
    · exact habove ▸ hend
    · exact hcode.quotes.2.trans (LineIndex.extract_span hcode.quotes.1).symm
    · exact congrArg Origin.codeBlock hword
  · cases hchunk

theorem length_eq_zero_of_chunk? (h : b.chunk? = none) : b.lines.length = 0 := by
  rw [OpenBlock.chunk?] at h
  split at h
  · cases h
  · omega

end OpenBlock

namespace BlockScan

variable {s : BlockScan}

def settled (s : BlockScan) (n : Nat) : Nat :=
  (s.opened.map OpenBlock.above).getD n

structure Traces (t : Text) (n : Nat) (s : BlockScan) : Prop where
  outside : s.opened = none ↔ Even (fencesAbove t n)
  opened : ∀ b, s.opened = some b → b.Traces t n
  settles : Settles t (s.settled n) s.done.toList

theorem traces_empty (t : Text) : Traces t 0 {} where
  outside := iff_of_true rfl ⟨0, rfl⟩
  opened := by simp
  settles := ⟨by simp, by simp, .nil, by simp [settled]⟩

theorem Traces.closed (h : s.Traces t n) (hquotes : s.Quotes t n) (hn : n ≤ t.lines.length)
    (hend : ∀ line, t.lines[n]? = some line → (fence? line).isSome = true) :
    Settles t n s.closed.toList := by
  have hcode := hquotes.closed hn
  have hsettles := h.settles
  rw [settled] at hsettles
  rw [BlockScan.closed] at hcode ⊢
  cases hb : s.opened with
  | none =>
      rw [hb] at hsettles
      exact hsettles
  | some b =>
      rw [hb] at hsettles
      obtain ⟨habove, -⟩ := hquotes.opened b hb
      rw [hb, Option.bind_some] at hcode
      rw [Option.bind_some]
      cases hchunk : b.chunk? with
      | none =>
          rw [OpenBlock.length_eq_zero_of_chunk? hchunk] at habove
          exact habove ▸ hsettles
      | some c =>
          rw [hchunk] at hcode
          obtain ⟨opening, hblock, hfirst, hlast⟩ :=
            (h.opened b hb).blockOf habove (hcode c Array.mem_push_self) hend hchunk
          have hconcat := hsettles.concat hblock hfirst
          rw [hlast] at hconcat
          simpa using hconcat

theorem Traces.step (h : s.Traces t n) (hquotes : s.Quotes t n) (hline : t.lines[n]? = some line) :
    (s.step (line, n)).Traces t (n + 1) := by
  have hsettles := h.settles
  rw [settled] at hsettles
  rw [BlockScan.step]
  split
  · -- the fence opens a block, which starts below it
    next fence hfence hnone =>
      have hsome := Option.isSome_of_eq_some hfence
      have heven := h.outside.mp hnone
      rw [hnone] at hsettles
      refine ⟨?_, ?_, hsettles.succ (not_inside_of_fence hline hsome)⟩
      · rw [fencesAbove_succ_of_fence hline hsome, Nat.even_add_one]
        exact iff_of_false (Option.some_ne_none _) (not_not.mpr heven)
      · rintro _ ⟨⟩
        refine ⟨⟨n, line, rfl, hline, hfence, heven⟩, ?_⟩
        intro i line hle hlt
        exact absurd hlt (Nat.not_lt.mpr hle)
  · -- the fence ends the open block
    next fence b hfence hb =>
      have hsome := Option.isSome_of_eq_some hfence
      have hodd : ¬ Even (fencesAbove t n) := fun heven => by
        rw [h.outside.mpr heven] at hb
        cases hb
      have hclosed := h.closed hquotes (Nat.le_of_lt (List.getElem?_eq_some_iff.mp hline).1) fun _ hline' =>
        Option.some.inj (hline.symm.trans hline') ▸ hsome
      refine ⟨?_, by simp, hclosed.succ (not_inside_of_fence hline hsome)⟩
      rw [fencesAbove_succ_of_fence hline hsome, Nat.even_add_one]
      exact iff_of_true rfl hodd
  · next b hnone hb =>
      refine ⟨?_, ?_, ?_⟩
      · rw [fencesAbove_succ_of_none hline hnone, ← h.outside, hb]
        exact iff_of_false (Option.some_ne_none _) (Option.some_ne_none _)
      · rintro _ ⟨⟩
        refine ⟨(h.opened b hb).opened, ?_⟩
        intro i line' hle hlt hi
        rcases Nat.lt_succ_iff_lt_or_eq.mp hlt with hlt | rfl
        · exact (h.opened b hb).plain i line' hle hlt hi
        · exact Option.some.inj (hline.symm.trans hi) ▸ hnone
      · rw [hb] at hsettles
        exact hsettles
  · next hnone hopened =>
      have heven := h.outside.mp hopened
      refine ⟨?_, ?_, ?_⟩
      · rw [fencesAbove_succ_of_none hline hnone]
        exact h.outside
      · intro b hb
        rw [hopened] at hb
        cases hb
      · rw [hopened] at hsettles
        rw [settled, hopened]
        apply hsettles.succ
        rintro ⟨-, -, -, hodd⟩
        exact Nat.not_even_iff_odd.mpr hodd heven

end BlockScan

theorem traces_blockScan (t : Text) :
    (blockScan t).Quotes t t.lines.length ∧ (blockScan t).Traces t t.lines.length :=
  foldl_zipIdx_keeps (fun n s => BlockScan.Quotes t n s ∧ BlockScan.Traces t n s) t.lines
    ⟨⟨by simp, by simp⟩, BlockScan.traces_empty t⟩
    fun _ _ _ hline hs => ⟨hs.1.step hline, hs.2.step hs.1 hline⟩

theorem settles_codeBlocks (t : Text) : Settles t t.lines.length (codeBlocks t) := by
  obtain ⟨hquotes, htraces⟩ := traces_blockScan t
  apply htraces.closed hquotes (Nat.le_refl _)
  intro line hline
  exact absurd (List.getElem?_eq_some_iff.mp hline).1 (Nat.lt_irrefl _)

theorem mem_codeBlocks_iff : c ∈ codeBlocks t ↔ ∃ opening, BlockOf t opening c := by
  constructor
  · exact (settles_codeBlocks t).blocks c
  · rintro ⟨opening, hblock⟩
    obtain ⟨i, hi⟩ := Nat.exists_eq_add_of_le' c.span.one_le_first
    have hmem : i + 1 ∈ c.span := ⟨Nat.le_of_eq hi, hi ▸ c.span.first_le_last⟩
    have hinside := hblock.fenced.inside hmem
    obtain ⟨d, hd, hmem'⟩ := (settles_codeBlocks t).covers i hinside.lt_length hinside
    obtain ⟨opening', hblock'⟩ := (settles_codeBlocks t).blocks d hd
    rwa [hblock.unique hblock' hmem hmem']

theorem existsUnique_block (h : Inside t i) : ∃! c, c ∈ codeBlocks t ∧ i + 1 ∈ c.span := by
  obtain ⟨c, hc, hmem⟩ := (settles_codeBlocks t).covers i h.lt_length h
  refine ⟨c, ⟨hc, hmem⟩, ?_⟩
  rintro d ⟨hd, hmem'⟩
  obtain ⟨opening, hblock⟩ := mem_codeBlocks_iff.mp hc
  obtain ⟨opening', hblock'⟩ := mem_codeBlocks_iff.mp hd
  exact hblock'.unique hblock hmem' hmem

theorem not_inside_of_section (hx : x ∈ sections t) (hfirst : x.span.first = i + 2) :
    ¬ Inside t (i + 1) := by
  rintro ⟨line, hline, -, hodd⟩
  rcases head_cases hx with ⟨h, hh, -⟩ | ⟨hone, -⟩
  · rw [hfirst] at hh
    obtain ⟨-, -, -, heven, -⟩ := headingAt?_eq_some.mp hh
    exact Nat.not_even_iff_odd.mpr hodd heven
  · omega

theorem existsUnique_section (hne : sections t ≠ []) (hc : c ∈ codeBlocks t) :
    ∃! x, x ∈ sections t ∧ c.span.Within x.span := by
  obtain ⟨opening, hblock⟩ := mem_codeBlocks_iff.mp hc
  have htile := tile_sections hne
  have hbottom := hblock.fenced.last_le
  have hle := c.span.first_le_last
  obtain ⟨s, hs, hmem⟩ := htile.exists_mem c.span.one_le_first (Nat.le_trans hle hbottom)
  obtain ⟨x, hx, rfl⟩ := List.mem_map.mp hs
  have hwithin : c.span.Within x.span := by
    refine ⟨hmem.1, ?_⟩
    by_contra hcut
    -- then the next section would start on a line of the block
    obtain ⟨u, hu, hnext⟩ := htile.exists_first_eq hs (by omega)
    obtain ⟨y, hy, rfl⟩ := List.mem_map.mp hu
    obtain ⟨i, hi⟩ := Nat.exists_eq_add_of_le' (Nat.le_trans x.span.one_le_first x.span.first_le_last)
    apply not_inside_of_section (i := i) hy (by omega)
    exact hblock.fenced.inside ⟨by have := hmem.2; omega, by omega⟩
  refine ⟨x, ⟨hx, hwithin⟩, ?_⟩
  rintro y ⟨hy, hwithin'⟩
  exact eq_of_within hx hy hwithin hwithin'

theorem codeBlocks_are_fenced_runs (t : Text) :
    (∀ c, c ∈ codeBlocks t ↔ ∃ opening, BlockOf t opening c) ∧
      (codeBlocks t).Pairwise (fun c d => c.span.last < d.span.first) ∧
      (∀ i, Inside t i → ∃! c, c ∈ codeBlocks t ∧ i + 1 ∈ c.span) ∧
      (sections t = [] ∨ ∀ c ∈ codeBlocks t, ∃! x, x ∈ sections t ∧ c.span.Within x.span) := by
  refine ⟨fun _ => mem_codeBlocks_iff, (settles_codeBlocks t).pairwise, fun _ => existsUnique_block, ?_⟩
  by_cases hnil : sections t = []
  · exact .inl hnil
  · exact .inr fun c hc => existsUnique_section hnil hc

end Markdown

end Chunkwise
