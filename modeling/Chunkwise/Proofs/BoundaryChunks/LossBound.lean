import Chunkwise.Proofs.BoundaryChunks.Lost
import Chunkwise.Proofs.Text.LineIndex

namespace Chunkwise

namespace BoundaryChunks

open Boundary

variable {c : Setting} {bs : List Boundary} {chunks : List Chunk} {line : Nat}

theorem exists_sweep_accounts (hmax : 0 < c.maxLines) (bs : List Boundary) :
    ∃ chunks, sweep c bs = .ok chunks ∧ Stack c c.index.lineCount chunks ∧
      ∀ line, Structural c.index.lineCount bs line →
        (∃ x ∈ chunks, line ∈ x.span) ∨ ∃ g ∈ dropped c bs, line ∈ g.span := by
  have hsorted : (bs.mergeSort precedes).Pairwise fun a b => a.first ≤ b.first := by
    apply (pairwise_precedes bs).imp
    intro a b h
    rw [precedes_iff] at h
    omega
  obtain ⟨s, hrun, hordered, hall⟩ :=
    Sweep.exists_run hmax hsorted (Sweep.ordered_empty c) (Sweep.keeps_empty c)
  refine ⟨s.finish c, by rw [sweep, hrun]; rfl, hordered.stack_finish, ?_⟩
  rintro line ⟨b, hb, hline⟩
  exact hall b (List.mem_mergeSort.mpr hb) line hline

theorem mem_growUp {x : Chunk} (h : line ∈ x.span) : line ∈ (growUp c x).span := by
  constructor
  · exact Nat.le_trans (growUp_first_le c x) h.1
  · rw [growUp_last]
    exact h.2

theorem mem_growDown {x : Chunk} (h : line ∈ x.span) : line ∈ (growDown c x).span := by
  obtain ⟨hfirst, hlast⟩ := h
  constructor
  · rw [growDown_first]
    exact hfirst
  · rcases growDown_last c x with heq | ⟨hlt, heq⟩ <;> omega

theorem exists_mem_changeFirst {f : Chunk → Chunk} (hf : ∀ x, line ∈ x.span → line ∈ (f x).span)
    (h : ∃ x ∈ chunks, line ∈ x.span) : ∃ x ∈ changeFirst f chunks, line ∈ x.span := by
  cases chunks with
  | nil => exact h
  | cons y ys =>
      rw [changeFirst]
      rw [List.exists_mem_cons_iff] at h ⊢
      exact h.imp_left (hf y)

theorem exists_mem_withContext (h : ∃ x ∈ chunks, line ∈ x.span) :
    ∃ x ∈ withContext c chunks, line ∈ x.span := by
  have hup := exists_mem_changeFirst (fun x => mem_growUp (c := c)) h
  rw [withContext, changeLast]
  simp only [List.mem_reverse]
  apply exists_mem_changeFirst fun x => mem_growDown
  simpa only [List.mem_reverse] using hup

theorem card_Icc_span (s : Span) : (Finset.Icc s.first s.last).card = s.size := by
  have := s.first_le_last
  rw [Nat.card_Icc, Span.size]
  omega

theorem card_le_of_groups {n : Nat} {gs : List Group} {lines : Finset Nat}
    (hsize : ∀ g ∈ gs, g.span.size ≤ n) (h : ∀ line ∈ lines, ∃ g ∈ gs, line ∈ g.span) :
    lines.card ≤ n * gs.length := by
  induction gs generalizing lines with
  | nil =>
      have hnone : lines = ∅ := by
        apply Finset.eq_empty_of_forall_notMem
        intro line hline
        obtain ⟨g, hg, -⟩ := h line hline
        cases hg
      simp [hnone]
  | cons g gs ih =>
      obtain ⟨hg, hgs⟩ := List.forall_mem_cons.mp hsize
      have hrest : (lines.filter (· ∉ g.span)).card ≤ n * gs.length := by
        apply ih hgs
        intro line hline
        obtain ⟨hline, hout⟩ := Finset.mem_filter.mp hline
        obtain ⟨k, hk, hmem⟩ := h line hline
        rcases List.mem_cons.mp hk with rfl | hk
        · exact absurd hmem hout
        · exact ⟨k, hk, hmem⟩
      have hsub : lines ⊆ Finset.Icc g.span.first g.span.last ∪ lines.filter (· ∉ g.span) := by
        intro line hline
        by_cases hmem : line ∈ g.span
        · exact Finset.mem_union_left _ (Finset.mem_Icc.mpr hmem)
        · exact Finset.mem_union_right _ (Finset.mem_filter.mpr ⟨hline, hmem⟩)
      calc lines.card
          ≤ (Finset.Icc g.span.first g.span.last).card + (lines.filter (· ∉ g.span)).card :=
            (Finset.card_le_card hsub).trans (Finset.card_union_le _ _)
        _ ≤ n + n * gs.length := by
            rw [card_Icc_span]
            exact Nat.add_le_add hg hrest
        _ = n * (g :: gs).length := by
            rw [List.length_cons, Nat.mul_succ, Nat.add_comm]

theorem countP_eq_one (hchunks : chunks.Pairwise fun x y => x.span.last < y.span.first)
    (h : ∃ x ∈ chunks, line ∈ x.span) : chunks.countP (fun x => line ∈ x.span) = 1 := by
  obtain ⟨x, hx, hline⟩ := h
  obtain ⟨above, below, rfl⟩ := List.append_of_mem hx
  obtain ⟨-, hbelow, hcross⟩ := List.pairwise_append.mp hchunks
  obtain ⟨hrest, -⟩ := List.pairwise_cons.mp hbelow
  have habove₀ : above.countP (fun x => line ∈ x.span) = 0 := by
    rw [List.countP_eq_zero]
    intro y hy hmem
    have := hcross y hy x List.mem_cons_self
    have := (of_decide_eq_true hmem).2
    have := hline.1
    omega
  have hbelow₀ : below.countP (fun x => line ∈ x.span) = 0 := by
    rw [List.countP_eq_zero]
    intro y hy hmem
    have := hrest y hy
    have := (of_decide_eq_true hmem).1
    have := hline.2
    omega
  rw [List.countP_append, List.countP_cons, habove₀, hbelow₀, if_pos (decide_eq_true hline)]

theorem card_lostLines_le {count : Nat}
    (h : ∀ line, Structural count bs line →
      (∃ x ∈ chunks, line ∈ x.span) ∨ ∃ g ∈ dropped c bs, line ∈ g.span) :
    ((lostLines count bs chunks).card : Int) ≤ max (c.minLines - 1) 0 * (cutCount c bs + 1) := by
  have hcard : (lostLines count bs chunks).card ≤
      (c.minLines - 1).toNat * (dropped c bs).length := by
    apply card_le_of_groups
    · intro g hg
      have := Sweep.size_lt_of_mem_dropped hg
      omega
    · intro line hline
      obtain ⟨hstructural, hout⟩ := mem_lostLines_iff.mp hline
      rcases h line hstructural with ⟨x, hx, hmem⟩ | hdropped
      · exact absurd hmem (hout x hx)
      · exact hdropped
  have hlength : (dropped c bs).length ≤ cutCount c bs + 1 := Sweep.length_dropped_le c {} _
  have hbound := hcard.trans (Nat.mul_le_mul_left _ hlength)
  rw [← Int.toNat_eq_max]
  exact_mod_cast hbound

end BoundaryChunks

namespace BoundaryChunker

open Boundary BoundaryChunks

theorem ofBoundaries_loss_bounded (language : String) (t : Text) (bs : List Boundary)
    (maxLines minLines : Int) (preserveContext : Bool) (hmax : 1 ≤ maxLines) :
    ∃ chunks, ofBoundaries language t bs maxLines minLines preserveContext = .ok chunks ∧
      let c : BoundaryChunks.Setting := ⟨LineIndex.ofText t, maxLines, minLines, language⟩
      (∀ line, Structural t.lines.length bs line → (∀ x ∈ chunks, line ∉ x.span) →
        ∃ g ∈ dropped c bs, g.span.size < minLines ∧ line ∈ g.span) ∧
      ((lostLines t.lines.length bs chunks).card : Int) ≤
        max (minLines - 1) 0 * (cutCount c bs + 1) ∧
      (minLines ≤ 1 → ∀ line, Structural t.lines.length bs line →
        chunks.countP (fun x => line ∈ x.span) = 1) := by
  obtain ⟨chunks, hsweep, hstack, haccounts⟩ :=
    exists_sweep_accounts (c := ⟨LineIndex.ofText t, maxLines, minLines, language⟩) hmax bs
  rw [LineIndex.lineCount_ofText] at haccounts
  -- the rest holds of all chunks that lie apart and account for the same lines
  suffices hgrown : ∃ grown, ofBoundaries language t bs maxLines minLines preserveContext = .ok grown ∧
      (grown.Pairwise fun x y => x.span.last < y.span.first) ∧
      ∀ line, (∃ x ∈ chunks, line ∈ x.span) → ∃ x ∈ grown, line ∈ x.span by
    obtain ⟨grown, hok, hpairwise, hmem⟩ := hgrown
    have hall := fun line hline => (haccounts line hline).imp_left (hmem line)
    refine ⟨grown, hok, fun line hline hout => ?_, card_lostLines_le hall, fun hmin line hline => ?_⟩
    · rcases hall line hline with ⟨x, hx, hin⟩ | ⟨g, hg, hin⟩
      · exact absurd hin (hout x hx)
      · exact ⟨g, hg, Sweep.size_lt_of_mem_dropped hg, hin⟩
    · rcases hall line hline with hin | ⟨g, hg, -⟩
      · exact countP_eq_one hpairwise hin
      · have hshort := Sweep.size_lt_of_mem_dropped hg
        simp only [Span.size] at hshort
        omega
  rw [ofBoundaries, hsweep]
  cases preserveContext with
  | false => exact ⟨chunks, rfl, hstack.pairwise, fun _ h => h⟩
  | true => exact ⟨_, rfl, hstack.withContext.pairwise, fun _ h => exists_mem_withContext h⟩

def shortAboveLong : List Boundary :=
  [⟨1, 2, .function, some "f"⟩, ⟨2, 1, .other, none⟩, ⟨3, 900, .classLike, some "C"⟩]

theorem ofBoundaries_loss_bounded_shortAboveLong :
    ∃ chunks, ofBoundaries "python" "f\nf\nC\nC\nC\nC\n".toList shortAboveLong 3 3 true = .ok chunks ∧
      (lostLines 6 shortAboveLong chunks).card ≤ 4 := by
  obtain ⟨chunks, hchunks, -, hcard, -⟩ := ofBoundaries_loss_bounded "python"
    "f\nf\nC\nC\nC\nC\n".toList shortAboveLong 3 3 true (by decide)
  have hcuts : cutCount ⟨LineIndex.ofText "f\nf\nC\nC\nC\nC\n".toList, 3, 3, "python"⟩
      shortAboveLong = 1 := by
    rw [cutCount, List.mergeSort_of_pairwise (by decide)]
    decide +kernel
  rw [hcuts] at hcard
  exact ⟨chunks, hchunks, Int.ofNat_le.mp hcard⟩

end BoundaryChunker

end Chunkwise
