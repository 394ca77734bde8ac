import Chunkwise.BoundaryChunks.Chunker
import Chunkwise.Proofs.BoundaryChunks.Nested

namespace Chunkwise

namespace Boundary

def InOne (b : Boundary) (chunks : List Chunk) : Prop :=
  ∃ above x below, chunks = above ++ x :: below ∧ b.Inside x.span ∧
    ∀ y ∈ above ++ below, b.Apart y.span

end Boundary

namespace BoundaryChunks

open Boundary

variable {c : Setting} {s : Sweep} {b : Boundary} {bs done : List Boundary} {chunks : List Chunk}

inductive Settled (chunks : List Chunk) (b : Boundary) : Prop
  | inside (x : Chunk) (hx : x ∈ chunks) (hinside : b.Inside x.span)
  | dropped (above : List Chunk) (p : Chunk) (below : List Chunk)
      (hchunks : chunks = above ++ p :: below) (hpart : p.origin.isPart = true)
      (habove : ∀ x ∈ above, x.span.last < b.first) (hbelow : b.last < p.span.first)
  | below (hbelow : ∀ x ∈ chunks, x.span.last < b.first)

theorem Sweep.Tracks.settled (hs : s.Tracks c bs done) (hb : b ∈ done) (hfits : b.Fits c.maxLines bs) :
    Settled (s.finish c) b := by
  have htoList := Sweep.toList_closed c s
  rw [Sweep.finish]
  cases hs.fate b hb hfits with
  | gathered g hg hinside =>
      simp only [hg] at htoList
      rw [htoList]
      split
      · exact .inside (g.chunk c) (by simp) hinside
      · refine .below fun x hx => ?_
        have h₁ := hs.ordered.stack.last_le x (by simpa using hx)
        have h₂ := hs.ordered.below g hg
        have h₃ := hinside.1
        omega
  | emitted x hx hinside =>
      rw [htoList]
      exact .inside x (List.mem_append_left _ hx) hinside
  | dropped above p below hchunks hpart habove hbelow =>
      obtain ⟨tail, htail⟩ : ∃ tail, (s.closed c).toList = s.chunks.toList ++ tail := ⟨_, htoList⟩
      refine .dropped above p (below ++ tail) ?_ hpart habove hbelow
      rw [htail, hchunks, List.append_assoc, List.cons_append]

namespace Settled

theorem growUp (h : Settled chunks b) : Settled (changeFirst (growUp c) chunks) b := by
  cases chunks with
  | nil => exact h
  | cons x xs =>
      have hlast := growUp_last c x
      cases h with
      | inside y hy hinside =>
          rcases List.mem_cons.mp hy with rfl | hy
          · refine .inside (BoundaryChunks.growUp c y) List.mem_cons_self ⟨?_, ?_⟩
            · have := growUp_first_le c y
              have := hinside.1
              omega
            · rw [hlast]
              exact hinside.2
          · exact .inside y (List.mem_cons_of_mem _ hy) hinside
      | dropped above p below hchunks hpart habove hbelow =>
          cases above with
          | nil =>
              obtain ⟨rfl, rfl⟩ := List.cons.inj hchunks
              refine .dropped [] x xs ?_ hpart habove hbelow
              rw [changeFirst, growUp_part c hpart]
              rfl
          | cons y above =>
              obtain ⟨rfl, rfl⟩ := List.cons.inj hchunks
              refine .dropped (BoundaryChunks.growUp c x :: above) p below rfl hpart ?_ hbelow
              rw [List.forall_mem_cons] at habove ⊢
              rw [hlast]
              exact habove
      | below hbelow =>
          rw [List.forall_mem_cons] at hbelow
          refine .below (List.forall_mem_cons.mpr ⟨?_, hbelow.2⟩)
          rw [hlast]
          exact hbelow.1

theorem growDown (h : Settled chunks b) (hcount : b.last ≤ c.index.lineCount) :
    Settled (changeLast (growDown c) chunks) b := by
  rcases List.eq_nil_or_concat chunks with rfl | ⟨xs, x, rfl⟩
  · exact h
  · rw [List.concat_eq_append] at h ⊢
    rw [changeLast_concat]
    have hmem : BoundaryChunks.growDown c x ∈ xs ++ [BoundaryChunks.growDown c x] := by simp
    have hfirst := growDown_first c x
    have hlast := growDown_last c x
    cases h with
    | inside y hy hinside =>
        rcases List.mem_append.mp hy with hy | hy
        · exact .inside y (List.mem_append_left _ hy) hinside
        · rw [List.mem_singleton] at hy
          subst hy
          have h₁ := hinside.1
          have h₂ := hinside.2
          exact .inside _ hmem ⟨by omega, by omega⟩
    | dropped above p below hchunks hpart habove hbelow =>
        rcases List.eq_nil_or_concat below with rfl | ⟨below, y, rfl⟩
        · obtain ⟨rfl, hx⟩ := List.append_inj' hchunks rfl
          obtain rfl := List.cons.inj hx |>.1
          exact .dropped xs x [] (by rw [growDown_part c hpart]) hpart habove hbelow
        · rw [List.concat_eq_append, ← List.cons_append, ← List.append_assoc] at hchunks
          obtain ⟨rfl, hx⟩ := List.append_inj' hchunks rfl
          refine .dropped above p (below ++ [BoundaryChunks.growDown c x]) ?_ hpart habove hbelow
          rw [List.append_assoc, List.cons_append]
    | below hbelow =>
        have h₁ := hbelow x (by simp)
        have h₂ := x.span.first_le_last
        rcases hlast with hlast | ⟨-, hlast⟩
        · refine .below fun y hy => ?_
          rcases List.mem_append.mp hy with hy | hy
          · exact hbelow y (List.mem_append_left _ hy)
          · rw [List.mem_singleton.mp hy, hlast]
            exact h₁
        · exact .inside _ hmem ⟨by omega, by omega⟩

theorem withContext (h : Settled chunks b) (hcount : b.last ≤ c.index.lineCount) :
    Settled (withContext c chunks) b :=
  h.growUp.growDown hcount

theorem inOne_or_apart (h : Settled chunks b)
    (hchunks : chunks.Pairwise fun x y => x.span.last < y.span.first) :
    b.InOne chunks ∨ ∀ y ∈ chunks, b.Apart y.span := by
  cases h with
  | inside x hx hinside =>
      obtain ⟨above, below, rfl⟩ := List.append_of_mem hx
      obtain ⟨-, hbelow, hcross⟩ := List.pairwise_append.mp hchunks
      obtain ⟨hrest, -⟩ := List.pairwise_cons.mp hbelow
      obtain ⟨hfirst, hlast⟩ := hinside
      refine .inl ⟨above, x, below, rfl, ⟨hfirst, hlast⟩, fun y hy => ?_⟩
      rcases List.mem_append.mp hy with hy | hy
      · have := hcross y hy x List.mem_cons_self
        exact .inr (by omega)
      · have := hrest y hy
        exact .inl (by omega)
  | dropped above p below hsplit hpart habove hbelow =>
      subst hsplit
      obtain ⟨hrest, -⟩ := List.pairwise_cons.mp (List.pairwise_append.mp hchunks).2.1
      refine .inr fun y hy => ?_
      rcases List.mem_append.mp hy with hy | hy
      · exact .inr (habove y hy)
      · rcases List.mem_cons.mp hy with rfl | hy
        · exact .inl hbelow
        · have := hrest y hy
          have := p.span.first_le_last
          exact .inl (by omega)
  | below hbelow => exact .inr fun y hy => .inr (hbelow y hy)

end Settled

theorem exists_sweep_settled (hmax : 0 < c.maxLines) (hbs : Nested c.index.lineCount bs) :
    ∃ chunks, sweep c bs = .ok chunks ∧ Stack c c.index.lineCount chunks ∧
      ∀ b ∈ bs, b.Fits c.maxLines bs → Settled chunks b := by
  obtain ⟨s, hsweep, hs⟩ := exists_sweep (Sweep.Tracks c bs) bs hmax
    (Sweep.tracks_empty c bs) fun _ _ _ _ _ hsorted hs hmove =>
      hmove.tracks (.of_sorted hbs hsorted) hs
  refine ⟨_, hsweep, hs.ordered.stack_finish, fun b hb hfits => hs.settled ?_ hfits⟩
  exact List.mem_mergeSort.mpr hb

end BoundaryChunks

namespace BoundaryChunker

open Boundary BoundaryChunks

theorem ofBoundaries_keeps_whole (language : String) (t : Text) (bs : List Boundary)
    (maxLines minLines : Int) (preserveContext : Bool) (hmax : 1 ≤ maxLines)
    (hbs : Nested (LineIndex.ofText t).lineCount bs) :
    ∃ chunks, ofBoundaries language t bs maxLines minLines preserveContext = .ok chunks ∧
      ∀ b ∈ bs, b.Fits maxLines bs → b.InOne chunks ∨ ∀ y ∈ chunks, b.Apart y.span := by
  obtain ⟨chunks, hsweep, hstack, hsettled⟩ :=
    exists_sweep_settled (c := ⟨LineIndex.ofText t, maxLines, minLines, language⟩) hmax hbs
  rw [ofBoundaries, hsweep]
  cases preserveContext with
  | false => exact ⟨chunks, rfl, fun b hb hfits => (hsettled b hb hfits).inOne_or_apart hstack.pairwise⟩
  | true =>
      refine ⟨_, rfl, fun b hb hfits => ?_⟩
      exact ((hsettled b hb hfits).withContext (hbs.last_le b hb)).inOne_or_apart
        hstack.withContext.pairwise

def classThenFunction : List Boundary :=
  [⟨4, 4, .function, some "g"⟩, ⟨1, 3, .classLike, some "C"⟩, ⟨2, 3, .function, some "f"⟩]

theorem ofBoundaries_keeps_whole_classThenFunction :
    ∃ chunks, ofBoundaries "python" "C\nf\nf\ng\n".toList classThenFunction 3 2 true = .ok chunks ∧
      ∀ b ∈ classThenFunction, b.InOne chunks ∨ ∀ y ∈ chunks, b.Apart y.span := by
  have hnested : Nested (LineIndex.ofText "C\nf\nf\ng\n".toList).lineCount classThenFunction :=
    ⟨by decide, by decide, by decide, by decide⟩
  obtain ⟨chunks, hchunks, h⟩ := ofBoundaries_keeps_whole "python" "C\nf\nf\ng\n".toList
    classThenFunction 3 2 true (by decide) hnested
  have hfits : ∀ b ∈ classThenFunction, b.Fits 3 classThenFunction := by decide
  exact ⟨chunks, hchunks, fun b hb => h b hb (hfits b hb)⟩

end BoundaryChunker

end Chunkwise
