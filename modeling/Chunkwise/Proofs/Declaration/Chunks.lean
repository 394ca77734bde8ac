import Chunkwise.Proofs.Cutting
import Chunkwise.Proofs.Declaration.Sweep
import Chunkwise.Proofs.Options

namespace Chunkwise

theorem Declaration.length_capped_le (n : Nat) (t : Text) :
    (capped n t).length ≤ maxLength + cutMark.length := by
  rw [capped]
  split
  · rw [List.length_append, List.length_take]
    omega
  · rw [List.length_take]
    omega

namespace DeclarationChunker

open Declaration

variable {t : Text} {m least : Int} {d e : Declaration} {part chunks : List Chunk} {c : Chunk}

structure IsPiece (t : Text) (d : Declaration) (c : Chunk) : Prop where
  text_eq : c.text = capped (t.quote c.span).length (t.quote c.span)
  kind_eq : c.kind = d.form.kind
  name_eq : c.name = some d.name
  origin_eq : c.origin = .declaration .wholeText d.form (some d.span)

inductive Makes (t : Text) (m least : Int) (d : Declaration) : List Chunk → Prop
  | pieces {part : List Chunk} (hlong : m < d.span.size)
      (hspans : d.span.Divided m (part.map (·.span))) (hpieces : ∀ c ∈ part, IsPiece t d c) :
      Makes t m least d part
  | whole (hshort : d.span.size ≤ m) (hkept : least ≤ d.span.size) :
      Makes t m least d [chunkOf .wholeText d]
  | nothing (hshort : d.span.size ≤ m) (hdropped : d.span.size < least) :
      Makes t m least d []

theorem exists_makes (least : Int) (hmax : 1 ≤ m) (hd : d.In t) :
    ∃ part, cutDeclaration (LineIndex.ofText t) .wholeText m least d = .ok part ∧
      Makes t m least d part := by
  rw [cutDeclaration]
  split
  · next hlong =>
      obtain ⟨spans, hspans, hdivided⟩ := d.span.exists_divided hmax (Int.le_of_lt hlong)
      rw [hspans]
      refine ⟨_, rfl, .pieces hlong ?_ ?_⟩
      · rw [List.map_map]
        simpa [pieceOf, Function.comp_def] using hdivided
      · intro c hc
        obtain ⟨p, hp, rfl⟩ := List.mem_map.mp hc
        exact ⟨text_pieceOf_eq_capped (Nat.le_trans (hdivided.last_le hp) hd.last_le), rfl, rfl, rfl⟩
  · next hshort =>
      split
      · next hkept => exact ⟨_, rfl, .whole (Int.not_lt.mp hshort) hkept⟩
      · next hdropped => exact ⟨_, rfl, .nothing (Int.not_lt.mp hshort) (Int.not_le.mp hdropped)⟩

namespace Makes

theorem ne_nil_iff (h : Makes t m least d part) :
    part ≠ [] ↔ m < d.span.size ∨ least ≤ d.span.size := by
  cases h with
  | pieces hlong hspans hpieces =>
      have hne := hspans.ne_nil
      exact iff_of_true (fun hnil => hne (by rw [hnil]; rfl)) (.inl hlong)
  | whole hshort hkept => exact iff_of_true (List.cons_ne_nil _ _) (.inr hkept)
  | nothing hshort hdropped =>
      apply iff_of_false (fun h => h rfl)
      omega

theorem within (h : Makes t m least d part) (hc : c ∈ part) : c.span.Within d.span := by
  cases h with
  | pieces hlong hspans hpieces =>
      have := d.span.one_le_first
      have hbounds := hspans.tile.bounds (List.mem_map_of_mem hc)
      exact ⟨by omega, hbounds.2⟩
  | whole hshort hkept =>
      rw [List.mem_singleton.mp hc]
      exact ⟨Nat.le_refl _, Nat.le_refl _⟩
  | nothing hshort hdropped => cases hc

theorem size_le (h : Makes t m least d part) (hc : c ∈ part) : c.span.size ≤ m := by
  cases h with
  | pieces hlong hspans hpieces => exact hspans.size_le (List.mem_map_of_mem hc)
  | whole hshort hkept =>
      rw [List.mem_singleton.mp hc]
      exact hshort
  | nothing hshort hdropped => cases hc

theorem length_le (hd : d.In t) (h : Makes t m least d part) (hc : c ∈ part) :
    c.text.length ≤ maxLength + cutMark.length := by
  cases h with
  | pieces hlong hspans hpieces =>
      rw [(hpieces c hc).text_eq]
      exact length_capped_le _ _
  | whole hshort hkept =>
      rw [List.mem_singleton.mp hc]
      change d.text.length ≤ _
      rw [hd.text_eq]
      exact length_capped_le _ _
  | nothing hshort hdropped => cases hc

theorem pairwise (h : Makes t m least d part) :
    part.Pairwise fun c e => c.span.last < e.span.first := by
  cases h with
  | pieces hlong hspans hpieces => exact List.pairwise_map.mp hspans.tile.pairwise
  | whole hshort hkept => exact List.pairwise_singleton _ _
  | nothing hshort hdropped => exact .nil

end Makes

theorem exists_makes_allOf (t : Text) (least : Int) (hmax : 1 ≤ m) :
    ∃ parts, declarationChunks .wholeText m least t = .ok parts.flatten ∧
      List.Forall₂ (Makes t m least) (allOf t) parts := by
  obtain ⟨parts, hparts, hmakes⟩ := exists_mapM_forall₂ (allOf t) fun d hd =>
    exists_makes least hmax (in_of_mem_allOf hd)
  exact ⟨parts, by rw [declarationChunks, hparts]; rfl, hmakes⟩

theorem flatten_ne_nil_iff {ds : List Declaration} {parts : List (List Chunk)}
    (hparts : List.Forall₂ (Makes t m least) ds parts) :
    parts.flatten ≠ [] ↔ ∃ d ∈ ds, m < d.span.size ∨ least ≤ d.span.size := by
  induction hparts with
  | nil => simp
  | @cons d part ds parts hmakes hrest ih =>
      rw [List.flatten_cons, List.exists_mem_cons_iff, ← hmakes.ne_nil_iff, ← ih]
      simp only [ne_eq, List.append_eq_nil_iff, not_and_or]

def MadeOf (t : Text) (m least : Int) (d : Declaration) (c : Chunk) : Prop :=
  ∃ part, Makes t m least d part ∧ c ∈ part

def ShareLine (t : Text) (m least : Int) (c e : Chunk) (line : Nat) : Prop :=
  ∃ d ∈ allOf t, ∃ d' ∈ allOf t, d.stop < d'.start ∧ MadeOf t m least d c ∧
    MadeOf t m least d' e ∧ d.span.last = line ∧ d'.span.first = line

structure FollowsDeclarations (t : Text) (m least : Int) (chunks : List Chunk) : Prop where
  made : ∃ parts, List.Forall₂ (Makes t m least) (allOf t) parts ∧ chunks = parts.flatten
  size_le : ∀ c ∈ chunks, c.span.size ≤ m
  length_le : ∀ c ∈ chunks, c.text.length ≤ maxLength + cutMark.length
  ordered : chunks.Pairwise fun c e => c.span.first ≤ e.span.first ∧ c.span.last ≤ e.span.first
  shared : chunks.Pairwise fun c e => c.span.last = e.span.first →
    ShareLine t m least c e c.span.last

theorem last_le_first (hd : d.In t) (he : e.In t) (hde : d.stop < e.start) :
    d.span.last ≤ e.span.first := by
  rw [hd.last_eq, he.first_eq]
  exact Nat.succ_le_succ ((List.take_sublist_take_left (Nat.le_of_lt hde)).count_le _)

section Parts

variable {parts : List (List Chunk)} (hparts : List.Forall₂ (Makes t m least) (allOf t) parts)
include hparts

theorem exists_madeOf (hc : c ∈ parts.flatten) : ∃ d ∈ allOf t, MadeOf t m least d c := by
  obtain ⟨part, hpart, hc⟩ := List.mem_flatten.mp hc
  obtain ⟨i, hi, rfl⟩ := List.mem_iff_getElem.mp hpart
  have hlength := hparts.length_eq
  exact ⟨_, List.getElem_mem _, _, hparts.get (by omega) hi, hc⟩

theorem pairwise_flatten {R : Chunk → Chunk → Prop}
    (hapart : ∀ c e : Chunk, c.span.last < e.span.first → R c e)
    (hother : ∀ d ∈ allOf t, ∀ d' ∈ allOf t, d.stop < d'.start → ∀ c e,
      MadeOf t m least d c → MadeOf t m least d' e → R c e) :
    parts.flatten.Pairwise R := by
  have hall := (List.forall₂_and_left (allOf t) parts).mpr ⟨fun d hd => hd, hparts⟩
  apply List.pairwise_flatten.mpr
  constructor
  · intro part hpart
    obtain ⟨i, hi, rfl⟩ := List.mem_iff_getElem.mp hpart
    have hlength := hparts.length_eq
    exact (hparts.get (by omega) hi).pairwise.imp fun {c e} => hapart c e
  · apply pairwise_of_forall₂ hall (pairwise_allOf t)
    rintro d d' part part' ⟨hd, hpart⟩ ⟨hd', hpart'⟩ hdd' c hc e he
    exact hother d hd d' hd' hdd' c e ⟨part, hpart, hc⟩ ⟨part', hpart', he⟩

theorem followsDeclarations_flatten : FollowsDeclarations t m least parts.flatten := by
  have hends : ∀ d ∈ allOf t, ∀ d' ∈ allOf t, d.stop < d'.start → ∀ c e,
      MadeOf t m least d c → MadeOf t m least d' e →
      c.span.last ≤ d.span.last ∧ d.span.last ≤ d'.span.first ∧ d'.span.first ≤ e.span.first := by
    rintro d hd d' hd' hdd' c e ⟨part, hpart, hc⟩ ⟨part', hpart', he⟩
    exact ⟨(hpart.within hc).2, last_le_first (in_of_mem_allOf hd) (in_of_mem_allOf hd') hdd',
      (hpart'.within he).1⟩
  constructor
  · exact ⟨parts, hparts, rfl⟩
  · intro c hc
    obtain ⟨d, -, part, hpart, hmem⟩ := exists_madeOf hparts hc
    exact hpart.size_le hmem
  · intro c hc
    obtain ⟨d, hd, part, hpart, hmem⟩ := exists_madeOf hparts hc
    exact hpart.length_le (in_of_mem_allOf hd) hmem
  · apply pairwise_flatten hparts
    · intro c e hapart
      have := c.span.first_le_last
      exact ⟨by omega, by omega⟩
    · intro d hd d' hd' hdd' c e hc he
      have := c.span.first_le_last
      have := hends d hd d' hd' hdd' c e hc he
      exact ⟨by omega, by omega⟩
  · apply pairwise_flatten hparts
    · intro c e hapart hline
      omega
    · intro d hd d' hd' hdd' c e hc he hline
      have := hends d hd d' hd' hdd' c e hc he
      exact ⟨d, hd, d', hd', hdd', hc, he, by omega, by omega⟩

end Parts

theorem chunk_follows_declarations (t : Text) (o : Options) (hmax : 1 ≤ maxLines o)
    (hoverlap : ∀ v, o.overlap = some v → 0 ≤ v ∧ v < maxLines o) :
    ∃ chunks, chunk t o = .ok chunks ∧
      ((∃ d ∈ allOf t, maxLines o < d.span.size ∨
          minLines o ≤ d.span.size) ∧
        FollowsDeclarations t (maxLines o) (minLines o) chunks ∨
      (¬ ∃ d ∈ allOf t, maxLines o < d.span.size ∨
          minLines o ≤ d.span.size) ∧
        LineChunks.ofText t (maxLines o) (o.overlap.getD 0) = .ok chunks) := by
  obtain ⟨parts, hchunks, hparts⟩ := exists_makes_allOf t (minLines o) hmax
  have hne := flatten_ne_nil_iff hparts
  have hfollows := followsDeclarations_flatten hparts
  cases hflat : parts.flatten with
  | cons c cs =>
      rw [hflat] at hchunks hne hfollows
      refine ⟨c :: cs, ?_, .inl ⟨hne.mp (List.cons_ne_nil c cs), hfollows⟩⟩
      rw [chunk, hchunks]
  | nil =>
      rw [hflat] at hchunks hne
      obtain ⟨chunks, hwindows⟩ := LineChunks.exists_ofText t hmax
        (Options.overlap_bounds hoverlap ⟨Int.le_refl 0, hmax⟩)
      refine ⟨chunks, ?_, .inr ⟨fun hex => hne.mpr hex rfl, hwindows⟩⟩
      rw [chunk, hchunks]
      exact hwindows

def shortBody : Text := "function f() \x7b\n  a;\n  b;\n\x7d\n".toList

def halves : Options := { maxLines := some 2, minLines := some 1 }

theorem chunk_follows_declarations_shortBody :
    1 ≤ maxLines halves ∧ (∀ v, halves.overlap = some v → 0 ≤ v ∧ v < maxLines halves) ∧
      ∃ chunks, chunk shortBody halves = .ok chunks ∧ FollowsDeclarations shortBody 2 1 chunks := by
  have hmax : 1 ≤ maxLines halves := by decide
  have hoverlap : ∀ v, halves.overlap = some v → 0 ≤ v ∧ v < maxLines halves := nofun
  refine ⟨hmax, hoverlap, ?_⟩
  have hlong : ∃ d ∈ allOf shortBody, maxLines halves < d.span.size ∨ minLines halves ≤ d.span.size := by
    decide +kernel
  obtain ⟨chunks, hchunks, ⟨-, hfollows⟩ | ⟨hnone, -⟩⟩ :=
    chunk_follows_declarations shortBody halves hmax hoverlap
  · exact ⟨chunks, hchunks, hfollows⟩
  · exact absurd hlong hnone

end DeclarationChunker

end Chunkwise
