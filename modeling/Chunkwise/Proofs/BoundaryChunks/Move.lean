import Chunkwise.BoundaryChunks.Sweep
import Chunkwise.Proofs.Pieces

namespace Chunkwise

namespace BoundaryChunks

variable {c : Setting} {s s' : Sweep} {b : Boundary} {span : Span}

theorem visible_eq_some {count below : Nat} (h : visible b count below = some span) :
    (span.first : Int) = max (max b.first 1) (below + 1) ∧ (span.last : Int) = min b.last count := by
  have h₁ := span.one_le_first
  have h₂ := span.first_le_last
  simp only [visible] at h
  split at h
  · cases h
    simp only at h₁ h₂ ⊢
    omega
  · cases h

theorem visible_eq_none {count below : Nat} (h : visible b count below = none) :
    min b.last count < max (max b.first 1) (below + 1) := by
  simp only [visible] at h
  split at h
  · cases h
  · omega

structure Parts (c : Setting) (span : Span) (parts : List Chunk) : Prop where
  isPart : ∀ p ∈ parts, p.origin.isPart = true
  text_eq : ∀ p ∈ parts, p.text = c.index.extract p.span.first p.span.last
  cut : span.CutInto c.maxLines.toNat (parts.map (·.span))
  ne_nil : parts ≠ []

theorem exists_parts (c : Setting) (b : Boundary) (h : 0 < c.maxLines)
    (hlong : c.maxLines < span.size) :
    ∃ parts, cutBoundary c b span = .ok parts ∧ Parts c span parts := by
  obtain ⟨pieces, hpieces, hcut, hne⟩ := Span.exists_pieces_ne_nil h (Int.le_of_lt hlong)
  refine ⟨_, by rw [cutBoundary, hpieces]; rfl, ?_, ?_, ?_, ?_⟩
  · intro p hp
    obtain ⟨q, -, rfl⟩ := List.mem_map.mp hp
    rfl
  · intro p hp
    obtain ⟨q, -, rfl⟩ := List.mem_map.mp hp
    rfl
  · simpa [Function.comp_def] using hcut
  · simpa using hne

inductive Move (c : Setting) (s : Sweep) (b : Boundary) : Sweep → Prop
  | hidden (hvisible : visible b c.index.lineCount s.covered = none) : Move c s b s
  | cut (span : Span) (parts : List Chunk)
      (hvisible : visible b c.index.lineCount s.covered = some span)
      (hlong : c.maxLines < span.size) (hcut : cutBoundary c b span = .ok parts)
      (hparts : Parts c span parts) : Move c s b ⟨span.last, none, s.closed c ++ parts⟩
  | opened (span : Span) (hvisible : visible b c.index.lineCount s.covered = some span)
      (hfits : span.size ≤ c.maxLines) (hgroup : s.group = none) :
      Move c s b ⟨s.emitted, some ⟨span, b, []⟩, s.chunks⟩
  | flushed (span : Span) (g : Group)
      (hvisible : visible b c.index.lineCount s.covered = some span)
      (hfits : span.size ≤ c.maxLines) (hgroup : s.group = some g)
      (hfull : c.maxLines < (span.last : Int) - g.span.first + 1)
      (hlong : c.minLines ≤ g.span.size) :
      Move c s b ⟨g.span.last, some ⟨span, b, []⟩, s.chunks.push (g.chunk c)⟩
  | joined (span : Span) (g : Group)
      (hvisible : visible b c.index.lineCount s.covered = some span)
      (hfits : span.size ≤ c.maxLines) (hgroup : s.group = some g)
      (hroom : (span.last : Int) - g.span.first + 1 ≤ c.maxLines ∨ g.span.size < c.minLines) :
      Move c s b ⟨s.emitted, some (g.add b span.last), s.chunks⟩

theorem exists_move (h : 0 < c.maxLines) (s : Sweep) (b : Boundary) :
    ∃ s', Sweep.step c s b = .ok s' ∧ Move c s b s' := by
  rw [Sweep.step]
  split
  · next hvisible => exact ⟨s, rfl, .hidden hvisible⟩
  · next span hvisible =>
      rw [Sweep.place]
      split
      · next hlong =>
          obtain ⟨parts, hcut, hparts⟩ := exists_parts c b h hlong
          exact ⟨_, by rw [hcut]; rfl, .cut span parts hvisible hlong hcut hparts⟩
      · next hfits =>
          have hfits : (span.size : Int) ≤ c.maxLines := Int.not_lt.mp hfits
          split
          · next hgroup => exact ⟨_, rfl, .opened span hvisible hfits hgroup⟩
          · next g hgroup =>
              split
              · next hflush =>
                  rw [Bool.and_eq_true, decide_eq_true_eq, decide_eq_true_eq] at hflush
                  exact ⟨_, rfl, .flushed span g hvisible hfits hgroup hflush.1 hflush.2⟩
              · next hjoin =>
                  rw [Bool.and_eq_true, decide_eq_true_eq, decide_eq_true_eq] at hjoin
                  refine ⟨_, rfl, .joined span g hvisible hfits hgroup ?_⟩
                  omega

theorem precedes_iff {a b : Boundary} :
    precedes a b = true ↔ a.first < b.first ∨ a.first = b.first ∧ b.last ≤ a.last := by
  simp [precedes]

theorem precedes_trans (a b d : Boundary) (hab : precedes a b = true) (hbd : precedes b d = true) :
    precedes a d = true := by
  rw [precedes_iff] at *
  omega

theorem precedes_total (a b : Boundary) : (precedes a b || precedes b a) = true := by
  rw [Bool.or_eq_true, precedes_iff, precedes_iff]
  omega

theorem pairwise_precedes (bs : List Boundary) :
    (bs.mergeSort precedes).Pairwise fun a b => precedes a b = true :=
  List.pairwise_mergeSort precedes_trans precedes_total bs

theorem before_of_sorted {bs done rest : List Boundary}
    (h : bs.mergeSort precedes = done ++ b :: rest) :
    ∀ a ∈ done, a.first < b.first ∨ a.first = b.first ∧ b.last ≤ a.last := by
  intro a ha
  have hp := pairwise_precedes bs
  rw [h] at hp
  exact precedes_iff.mp ((List.pairwise_append.mp hp).2.2 a ha b List.mem_cons_self)

theorem exists_foldlM_step (Inv : List Boundary → Sweep → Prop) (bs : List Boundary)
    (h : 0 < c.maxLines) (init : Inv [] {})
    (keep : ∀ done b rest s s', bs = done ++ b :: rest → done.foldlM (Sweep.step c) {} = .ok s →
      s.step c b = .ok s' → Move c s b s' → Inv done s → Inv (done ++ [b]) s') :
    ∃ s, bs.foldlM (Sweep.step c) {} = .ok s ∧ Inv bs s := by
  have hstep : ∀ done b rest s, bs = done ++ b :: rest →
      done.foldlM (Sweep.step c) {} = .ok s ∧ Inv done s →
      ∃ s', s.step c b = .ok s' ∧
        (done ++ [b]).foldlM (Sweep.step c) {} = .ok s' ∧ Inv (done ++ [b]) s' := by
    intro done b rest s hbs ⟨hdone, hs⟩
    obtain ⟨s', hstep, hmove⟩ := exists_move h s b
    refine ⟨s', hstep, ?_, keep done b rest s s' hbs hdone hstep hmove hs⟩
    rw [List.foldlM_append, hdone]
    change List.foldlM (Sweep.step c) s [b] = .ok s'
    rw [List.foldlM_cons, hstep]
    rfl
  obtain ⟨s, -, hrun, hs⟩ := exists_foldlM_ok
    (fun done s => done.foldlM (Sweep.step c) {} = .ok s ∧ Inv done s) bs ⟨rfl, init⟩ hstep
  exact ⟨s, hrun, hs⟩

theorem exists_sweep (Inv : List Boundary → Sweep → Prop) (bs : List Boundary) (h : 0 < c.maxLines)
    (init : Inv [] {})
    (keep : ∀ done b rest s s', bs.mergeSort precedes = done ++ b :: rest → Inv done s →
      Move c s b s' → Inv (done ++ [b]) s') :
    ∃ s, sweep c bs = .ok (s.finish c) ∧ Inv (bs.mergeSort precedes) s := by
  obtain ⟨s, hrun, hs⟩ := exists_foldlM_step Inv (bs.mergeSort precedes) h init
    fun done b rest s s' hbs _ _ hmove hs => keep done b rest s s' hbs hs hmove
  exact ⟨s, by rw [sweep, hrun]; rfl, hs⟩

end BoundaryChunks

end Chunkwise
