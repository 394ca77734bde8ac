import Chunkwise.Proofs.BoundaryChunks.Chunker
import Chunkwise.Proofs.BoundaryChunks.Lost
import Chunkwise.Proofs.BoundaryChunks.Nested
import Mathlib.Data.List.Nodup
import Mathlib.Data.List.Sort

namespace Chunkwise

section Sorting

variable {α : Type} {le : α → α → Bool} {a b x : α} {l : List α}

abbrev insertBy (le : α → α → Bool) (a : α) (l : List α) : List α :=
  l.orderedInsert (fun x y => le x y = true) a

theorem insertBy_cons_of_le (h : le a x = true) : insertBy le a (x :: l) = a :: x :: l :=
  List.orderedInsert_cons_of_le _ l h

theorem insertBy_cons_of_not_le (h : ¬ le a x = true) :
    insertBy le a (x :: l) = x :: insertBy le a l :=
  List.orderedInsert_of_not_le _ l h

theorem insertBy_of_forall_le (h : ∀ x ∈ l, le a x = true) : insertBy le a l = a :: l := by
  cases l with
  | nil => rfl
  | cons x l => exact insertBy_cons_of_le (h x List.mem_cons_self)

theorem insertBy_append_of_not_le {u : List α} (v : List α) (h : ∀ x ∈ u, ¬ le a x = true) :
    insertBy le a (u ++ v) = u ++ insertBy le a v := by
  induction u with
  | nil => rfl
  | cons x u ih =>
      obtain ⟨hx, hu⟩ := List.forall_mem_cons.mp h
      rw [List.cons_append, insertBy_cons_of_not_le hx, ih hu, List.cons_append]

theorem exists_insertBy_split (htrans : ∀ a b c, le a b = true → le b c = true → le a c = true)
    (a b : α) (u v : List α) (hsorted : (u ++ b :: v).Pairwise fun x y => le x y = true) :
    ∃ u' v', insertBy le a (u ++ b :: v) = u' ++ b :: v' ∧ insertBy le a (u ++ v) = u' ++ v' ∧
      (∀ x ∈ u, x ∈ u') ∧ (le a b = true → a ∈ u') := by
  induction u with
  | nil =>
      by_cases hab : le a b = true
      · have hv : ∀ x ∈ v, le a x = true := fun x hx =>
          htrans a b x hab ((List.pairwise_cons.mp hsorted).1 x hx)
        exact ⟨[a], v, insertBy_cons_of_le hab, insertBy_of_forall_le hv, by simp, by simp⟩
      · exact ⟨[], insertBy le a v, insertBy_cons_of_not_le hab, rfl, by simp, fun h => absurd h hab⟩
  | cons x u ih =>
      by_cases hax : le a x = true
      · exact ⟨a :: x :: u, v, insertBy_cons_of_le hax, insertBy_cons_of_le hax,
          fun y hy => List.mem_cons_of_mem _ hy, by simp⟩
      · obtain ⟨u', v', hwith, hwithout, hu, ha⟩ := ih (List.pairwise_cons.mp hsorted).2
        refine ⟨x :: u', v', ?_, ?_, ?_, fun h => List.mem_cons_of_mem _ (ha h)⟩
        · rw [List.cons_append, insertBy_cons_of_not_le hax, hwith, List.cons_append]
        · rw [List.cons_append, insertBy_cons_of_not_le hax, hwithout, List.cons_append]
        · intro y hy
          rcases List.mem_cons.mp hy with rfl | hy
          · exact List.mem_cons_self
          · exact List.mem_cons_of_mem _ (hu y hy)

section

variable (htrans : ∀ a b c, le a b = true → le b c = true → le a c = true)
  (htotal : ∀ a b, (le a b || le b a) = true)
include htrans htotal

theorem mergeSort_cons_eq (a : α) (l : List α) :
    (a :: l).mergeSort le = insertBy le a (l.mergeSort le) := by
  obtain ⟨u, v, hcons, hl, hu⟩ := List.mergeSort_cons htrans htotal a l
  have hsorted := List.pairwise_mergeSort htrans htotal (a :: l)
  rw [hcons] at hsorted
  have hv := (List.pairwise_cons.mp (List.pairwise_append.mp hsorted).2.1).1
  have hu : ∀ x ∈ u, ¬ le a x = true := fun x hx => by simpa using hu x hx
  rw [hcons, hl, insertBy_append_of_not_le v hu, insertBy_of_forall_le hv]

theorem exists_mergeSort_split (above below : List α) (b : α) :
    ∃ u v, (above ++ b :: below).mergeSort le = u ++ b :: v ∧
      (above ++ below).mergeSort le = u ++ v ∧ ∀ a ∈ above, le a b = true → a ∈ u := by
  induction above with
  | nil =>
      obtain ⟨u, v, hwith, hwithout, -⟩ := List.mergeSort_cons htrans htotal b below
      exact ⟨u, v, hwith, hwithout, by simp⟩
  | cons a above ih =>
      obtain ⟨u, v, hwith, hwithout, habove⟩ := ih
      have hsorted := List.pairwise_mergeSort htrans htotal (above ++ b :: below)
      rw [hwith] at hsorted
      obtain ⟨u', v', hwith', hwithout', hu, ha⟩ := exists_insertBy_split htrans a b u v hsorted
      refine ⟨u', v', ?_, ?_, List.forall_mem_cons.mpr ⟨ha, fun x hx h => hu x (habove x hx h)⟩⟩
      · rw [List.cons_append, mergeSort_cons_eq htrans htotal, hwith, hwith']
      · rw [List.cons_append, mergeSort_cons_eq htrans htotal, hwithout, hwithout']

end

end Sorting

namespace BoundaryChunks

open Boundary

variable {c : Setting} {s s' : Sweep} {a b : Boundary} {bs bs' done above below : List Boundary}
  {span : Span}

theorem mergeSort_eq_of_perm (hperm : bs.Perm bs')
    (hdistinct : (bs.map fun b => (b.first, b.last)).Nodup) :
    bs.mergeSort precedes = bs'.mergeSort precedes := by
  have hsorted : (bs.mergeSort precedes).Perm (bs'.mergeSort precedes) :=
    (List.mergeSort_perm bs precedes).trans (hperm.trans (List.mergeSort_perm bs' precedes).symm)
  refine hsorted.eq_of_pairwise ?_ (pairwise_precedes bs) (pairwise_precedes bs')
  intro a b ha hb hab hba
  rw [precedes_iff] at hab hba
  rw [List.mem_mergeSort] at ha hb
  apply List.inj_on_of_nodup_map hdistinct ha (hperm.mem_iff.mpr hb)
  rw [Prod.mk.injEq]
  omega

theorem visible_eq_none_iff {count below : Nat} :
    visible b count below = none ↔ min b.last count < max (max b.first 1) (below + 1) := by
  refine ⟨visible_eq_none, fun h => ?_⟩
  rw [visible]
  split
  · omega
  · rfl

theorem visible_mono {count below below' : Nat} (h : visible b count below = none)
    (hle : below ≤ below') : visible b count below' = none := by
  rw [visible_eq_none_iff] at h ⊢
  omega

def Sweep.Passed (c : Setting) (b : Boundary) (s : Sweep) : Prop :=
  visible b c.index.lineCount s.covered = none

def Sweep.PassedWithin (c : Setting) (done : List Boundary) (s : Sweep) : Prop :=
  ∀ a ∈ done, ∀ b : Boundary, b.Within a → s.Passed c b

theorem Sweep.Passed.step (h : s.Passed c b) : s.step c b = .ok s := by
  rw [Sweep.step, h]

namespace Move

theorem covered_le (hmove : Move c s b s') (hs : s.Ordered c) : s.covered ≤ s'.covered := by
  have hordered := hmove.ordered hs
  cases hmove with
  | hidden => exact Nat.le_refl _
  | cut span parts hvisible =>
      have := covered_lt_first hvisible
      have := span.first_le_last
      rw [Sweep.covered_of_none (s := ⟨span.last, none, _⟩) rfl]
      change s.covered ≤ span.last
      omega
  | opened span hvisible | flushed span g hvisible =>
      have := covered_lt_first hvisible
      have := span.first_le_last
      rw [hordered.covered_of_some rfl]
      change s.covered ≤ span.last
      omega
  | joined span g hvisible hfits hgroup =>
      rw [hordered.covered_of_some rfl, hs.covered_of_some hgroup]
      exact Nat.le_max_left _ _

theorem passed (hmove : Move c s b s') (hs : s.Ordered c) (h : s.Passed c a) : s'.Passed c a :=
  visible_mono h (hmove.covered_le hs)

theorem passed_of_within (hmove : Move c s a s') (hs : s.Ordered c) (hwithin : b.Within a) :
    s'.Passed c b := by
  obtain ⟨hfirst, hlast⟩ := hwithin
  rw [Sweep.Passed, visible_eq_none_iff]
  by_cases hnone : min a.last c.index.lineCount < max a.first 1
  · omega
  · have hline : a.Has c.index.lineCount (min a.last c.index.lineCount).toNat :=
      ⟨by omega, by omega⟩
    have := hmove.le_covered hs hline
    omega

theorem passedWithin (hmove : Move c s a s') (hs : s.Ordered c) (h : s.PassedWithin c done) :
    s'.PassedWithin c (done ++ [a]) := by
  intro d hd b hwithin
  rcases List.mem_append.mp hd with hd | hd
  · exact hmove.passed hs (h d hd b hwithin)
  · rw [List.mem_singleton.mp hd] at hwithin
    exact hmove.passed_of_within hs hwithin

end Move

theorem exists_run_passedWithin (hmax : 0 < c.maxLines) (bs : List Boundary) :
    ∃ s, bs.foldlM (Sweep.step c) {} = .ok s ∧ s.PassedWithin c bs := by
  obtain ⟨s, hrun, -, hpassed⟩ := exists_foldlM_step
    (fun done (s : Sweep) => s.Ordered c ∧ s.PassedWithin c done) bs hmax
    ⟨Sweep.ordered_empty c, by simp [Sweep.PassedWithin]⟩
    fun done a rest s s' _ _ _ hmove ⟨hs, hpassed⟩ =>
      ⟨hmove.ordered hs, hmove.passedWithin hs hpassed⟩
  exact ⟨s, hrun, hpassed⟩

def Covered (above below : List Boundary) (b : Boundary) : Prop :=
  (∃ a ∈ above, b.Within a) ∨ ∃ a ∈ below, b.Within a ∧ ¬ a.Within b

theorem exists_sorted_split (h : Covered above below b) :
    ∃ u v, (above ++ b :: below).mergeSort precedes = u ++ b :: v ∧
      (above ++ below).mergeSort precedes = u ++ v ∧ ∃ a ∈ u, b.Within a := by
  obtain ⟨u, v, hwith, hwithout, habove⟩ :=
    exists_mergeSort_split precedes_trans precedes_total above below b
  refine ⟨u, v, hwith, hwithout, ?_⟩
  rcases h with ⟨a, ha, hfirst, hlast⟩ | ⟨a, ha, ⟨hfirst, hlast⟩, hproper⟩
  · refine ⟨a, habove a ha ?_, hfirst, hlast⟩
    rw [precedes_iff]
    omega
  · have hmem : a ∈ (above ++ below).mergeSort precedes :=
      List.mem_mergeSort.mpr (List.mem_append_right _ ha)
    rw [hwithout] at hmem
    rcases List.mem_append.mp hmem with hmem | hmem
    · exact ⟨a, hmem, hfirst, hlast⟩
    · have hsorted := pairwise_precedes (above ++ b :: below)
      rw [hwith] at hsorted
      have hba := (List.pairwise_cons.mp (List.pairwise_append.mp hsorted).2.1).1 a hmem
      rw [precedes_iff] at hba
      exact absurd ⟨by omega, by omega⟩ hproper

theorem sweep_delete (hmax : 0 < c.maxLines) (h : Covered above below b) :
    sweep c (above ++ b :: below) = sweep c (above ++ below) := by
  obtain ⟨u, v, hwith, hwithout, a, ha, hwithin⟩ := exists_sorted_split h
  obtain ⟨s, hrun, hpassed⟩ := exists_run_passedWithin hmax u
  have hstep : s.step c b = .ok s := (hpassed a ha b hwithin).step
  rw [sweep, sweep, hwith, hwithout, List.foldlM_append, List.foldlM_append, hrun]
  change ((b :: v).foldlM (Sweep.step c) s).map _ = (v.foldlM (Sweep.step c) s).map _
  rw [List.foldlM_cons, hstep]
  rfl

end BoundaryChunks

namespace BoundaryChunker

open Boundary BoundaryChunks

theorem ofBoundaries_outermost (language : String) (t : Text) (maxLines minLines : Int)
    (preserveContext : Bool) (hmax : 1 ≤ maxLines) :
    (∀ bs bs' : List Boundary, bs.Perm bs' → (bs.map fun b => (b.first, b.last)).Nodup →
      ∃ chunks, ofBoundaries language t bs maxLines minLines preserveContext = .ok chunks ∧
        ofBoundaries language t bs' maxLines minLines preserveContext = .ok chunks) ∧
    ∀ (above below : List Boundary) (b : Boundary), Covered above below b →
      ∃ chunks,
        ofBoundaries language t (above ++ b :: below) maxLines minLines preserveContext = .ok chunks ∧
        ofBoundaries language t (above ++ below) maxLines minLines preserveContext = .ok chunks := by
  constructor
  · intro bs bs' hperm hdistinct
    obtain ⟨chunks, hchunks, -⟩ :=
      exists_ofBoundaries language t bs maxLines minLines preserveContext hmax
    refine ⟨chunks, hchunks, ?_⟩
    rw [ofBoundaries, sweep, ← mergeSort_eq_of_perm hperm hdistinct]
    exact hchunks
  · intro above below b hcovered
    obtain ⟨chunks, hchunks, -⟩ :=
      exists_ofBoundaries language t (above ++ b :: below) maxLines minLines preserveContext hmax
    refine ⟨chunks, hchunks, ?_⟩
    rw [ofBoundaries, ← sweep_delete (c := ⟨LineIndex.ofText t, maxLines, minLines, language⟩) hmax
      hcovered]
    exact hchunks

def methodAndFunction : List Boundary :=
  [⟨4, 5, .function, some "g"⟩, ⟨1, 3, .classLike, some "C"⟩, ⟨2, 3, .function, some "f"⟩]

theorem ofBoundaries_outermost_methodAndFunction :
    ∃ chunks, ofBoundaries "python" "C\nf\nf\ng\ng\n".toList methodAndFunction 3 1 true = .ok chunks ∧
      ofBoundaries "python" "C\nf\nf\ng\ng\n".toList methodAndFunction.reverse 3 1 true = .ok chunks ∧
      ofBoundaries "python" "C\nf\nf\ng\ng\n".toList (methodAndFunction.take 2) 3 1 true =
        .ok chunks := by
  obtain ⟨horder, hwithin⟩ := ofBoundaries_outermost "python" "C\nf\nf\ng\ng\n".toList 3 1 true
    (by decide)
  obtain ⟨chunks, hchunks, hreverse⟩ :=
    horder methodAndFunction methodAndFunction.reverse (by decide) (by decide)
  obtain ⟨chunks', hchunks', hshort⟩ := hwithin (methodAndFunction.take 2) []
    ⟨2, 3, .function, some "f"⟩ (.inl ⟨⟨1, 3, .classLike, some "C"⟩, by decide, by decide⟩)
  obtain rfl : chunks = chunks' := Except.ok.inj (hchunks.symm.trans hchunks')
  exact ⟨chunks, hchunks, hreverse, hshort⟩

end BoundaryChunker

end Chunkwise
