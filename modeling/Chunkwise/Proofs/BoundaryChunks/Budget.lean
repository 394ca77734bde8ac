import Chunkwise.Proofs.BoundaryChunks.Widening
import Mathlib.Data.List.Chain

namespace Chunkwise

namespace BoundaryChunks

variable {c : Setting} {s s' : Sweep} {b : Boundary} {bs done rest : List Boundary} {span : Span}
  {parts xs ys : List Chunk} {x y : Chunk}

namespace Group

theorem members_add (g : Group) (b : Boundary) (last : Nat) :
    (g.add b last).members = g.members ++ [b] := by
  simp [members, add]

end Group

def Turns (c : Setting) (bs : List Boundary) (b : Boundary) (g g' : Group) : Prop :=
  ∃ done rest s s', bs.mergeSort precedes = done ++ b :: rest ∧
    done.foldlM (Sweep.step c) {} = .ok s ∧ s.group = some g ∧
    s.step c b = .ok s' ∧ s'.group = some g'

def Completed (c : Setting) (bs : List Boundary) (x : Chunk) : Prop :=
  ∃ g b g', Turns c bs b g g' ∧ g'.members = g.members ++ [b] ∧
    (g.span.size : Int) < c.minLines ∧ x = g'.chunk c

def TooLongTogether (c : Setting) (x y : Chunk) : Prop :=
  x.origin.isPart = false → y.origin.isPart = false →
    c.maxLines < (y.span.last : Int) - x.span.first + 1

structure InBudget (c : Setting) (bs : List Boundary) (x : Chunk) : Prop where
  part_le : x.origin.isPart = true → (x.span.size : Int) ≤ c.maxLines
  le_size : x.origin.isPart = false → c.minLines ≤ x.span.size
  size_le : x.origin.isPart = false → (x.span.size : Int) ≤ c.maxLines ∨ Completed c bs x

structure Sweep.Budget (c : Setting) (bs : List Boundary) (s : Sweep) : Prop where
  chunks : ∀ x ∈ s.chunks.toList, InBudget c bs x
  chain : (s.chunks.toList ++ s.group.toList.map (·.chunk c)).IsChain (TooLongTogether c)
  opened : ∀ g, s.group = some g → (g.span.size : Int) ≤ c.maxLines ∨ Completed c bs (g.chunk c)
  closed : s.group = none → ∀ x ∈ s.chunks.toList.getLast?, x.origin.isPart = true

theorem Sweep.budget_empty (c : Setting) (bs : List Boundary) : Sweep.Budget c bs {} where
  chunks := by simp
  chain := by simp
  opened := by simp
  closed := by simp

namespace Sweep.Budget

theorem inBudget_chunk {g : Group} (hs : s.Budget c bs) (hgroup : s.group = some g)
    (hlong : c.minLines ≤ g.span.size) : InBudget c bs (g.chunk c) where
  part_le h := by cases h
  le_size _ := hlong
  size_le _ := hs.opened g hgroup

theorem inBudget_closed (hs : s.Budget c bs) : ∀ x ∈ (s.closed c).toList, InBudget c bs x := by
  intro x hx
  rw [toList_closed] at hx
  rcases List.mem_append.mp hx with hx | hx
  · exact hs.chunks x hx
  · split at hx
    · cases hx
    · next g hg =>
        split at hx
        · next hlong =>
            rw [List.mem_singleton.mp hx]
            exact hs.inBudget_chunk hg hlong
        · cases hx

theorem chain_closed (hs : s.Budget c bs) : (s.closed c).toList.IsChain (TooLongTogether c) := by
  have hchain := hs.chain
  rw [toList_closed]
  split
  · next hg => simpa [hg] using hchain
  · next g hg =>
      rw [hg] at hchain
      split
      · exact hchain
      · rw [List.append_nil]
        exact hchain.left_of_append

theorem chain_opened (hs : s.Budget c bs) (hgroup : s.group = none) (x : Chunk) :
    (s.chunks.toList ++ [x]).IsChain (TooLongTogether c) := by
  refine List.IsChain.append hs.chain.left_of_append (List.isChain_singleton x) ?_
  intro y hy z _ hplain
  rw [hs.closed hgroup y hy] at hplain
  cases hplain

theorem chain_joined {g g' : Group} (hs : s.Budget c bs) (hgroup : s.group = some g)
    (hlast : g.span.last ≤ g'.span.last) :
    (s.chunks.toList ++ [g'.chunk c]).IsChain (TooLongTogether c) := by
  have hchain := hs.chain
  rw [hgroup] at hchain
  refine List.IsChain.append hchain.left_of_append (List.isChain_singleton _) ?_
  intro x hx y hy hplain _
  obtain rfl : g'.chunk c = y := Option.some.inj hy
  have hold := (List.isChain_append.mp hchain).2.2 x hx _ rfl hplain rfl
  change c.maxLines < (g.span.last : Int) - x.span.first + 1 at hold
  change c.maxLines < (g'.span.last : Int) - x.span.first + 1
  omega

theorem cut (hs : s.Budget c bs) (hmax : 0 < c.maxLines) (hparts : Parts c span parts) :
    Budget c bs ⟨span.last, none, s.closed c ++ parts⟩ := by
  have hpart : ∀ p ∈ parts, InBudget c bs p := fun p hp => by
    have hsize := hparts.cut.size_le (List.mem_map_of_mem hp)
    have hisPart := hparts.isPart p hp
    exact ⟨fun _ => by omega, by simp [hisPart], by simp [hisPart]⟩
  refine ⟨?_, ?_, by simp, fun _ x hx => ?_⟩
  · intro x hx
    rw [Array.toList_appendList] at hx
    rcases List.mem_append.mp hx with hx | hx
    · exact hs.inBudget_closed x hx
    · exact hpart x hx
  · simp only [Array.toList_appendList, Option.toList_none, List.map_nil, List.append_nil]
    refine hs.chain_closed.append (List.Pairwise.isChain ?_) ?_
    · refine List.pairwise_of_forall_mem_list fun p hp q _ hplain => ?_
      simp [hparts.isPart p hp] at hplain
    · intro x _ p hp _ hplain
      simp [hparts.isPart p (List.mem_of_mem_head? hp)] at hplain
  · rw [Array.toList_appendList, List.getLast?_append_of_ne_nil _ hparts.ne_nil] at hx
    exact hparts.isPart x (List.mem_of_getLast? hx)

end Sweep.Budget

theorem Move.budget (hmove : Move c s b s') (hmax : 0 < c.maxLines) (hordered : s.Ordered c)
    (hturns : ∀ g g', s.group = some g → s'.group = some g' → Turns c bs b g g')
    (hs : s.Budget c bs) :
    s'.Budget c bs := by
  cases hmove with
  | hidden => exact hs
  | cut span parts hvisible hlong hcut hparts => exact hs.cut hmax hparts
  | opened span hvisible hfits hgroup =>
      refine ⟨hs.chunks, hs.chain_opened hgroup _, ?_, by simp⟩
      rintro g ⟨⟩
      exact .inl hfits
  | flushed span g hvisible hfits hgroup hfull hlong =>
      have hchain := hs.chain
      rw [hgroup] at hchain
      refine ⟨?_, ?_, ?_, by simp⟩
      · intro x hx
        rw [Array.toList_push] at hx
        rcases List.mem_append.mp hx with hx | hx
        · exact hs.chunks x hx
        · rw [List.mem_singleton.mp hx]
          exact hs.inBudget_chunk hgroup hlong
      · rw [Array.toList_push]
        refine List.IsChain.append hchain (List.isChain_singleton _) ?_
        intro x hx y hy _ _
        rw [List.getLast?_concat] at hx
        cases hx
        cases hy
        exact hfull
      · rintro g' ⟨⟩
        exact .inl hfits
  | joined span g hvisible hfits hgroup hroom =>
      have hlt := covered_lt_first hvisible
      rw [hordered.covered_of_some hgroup] at hlt
      refine ⟨hs.chunks, hs.chain_joined hgroup (Nat.le_max_left _ _), ?_, by simp⟩
      rintro g' ⟨⟩
      rcases hroom with hroom | hshort
      · have h₁ := g.span.first_le_last
        have h₂ := span.first_le_last
        refine .inl ?_
        simp only [Group.add, Span.extendTo, Span.size]
        omega
      · exact .inr ⟨g, b, _, hturns g _ hgroup rfl, g.members_add b span.last, hshort, rfl⟩

theorem Sweep.Budget.finish (hs : s.Budget c bs) :
    (∀ x ∈ s.finish c, InBudget c bs x) ∧ (s.finish c).IsChain (TooLongTogether c) :=
  ⟨hs.inBudget_closed, hs.chain_closed⟩

theorem exists_sweep_budget (bs : List Boundary) (hmax : 0 < c.maxLines) :
    ∃ chunks, sweep c bs = .ok chunks ∧ (∀ x ∈ chunks, InBudget c bs x) ∧
      chunks.IsChain (TooLongTogether c) := by
  have keep : ∀ done b rest s s', bs.mergeSort precedes = done ++ b :: rest →
      done.foldlM (Sweep.step c) {} = .ok s → s.step c b = .ok s' → Move c s b s' →
      s.Ordered c ∧ s.Budget c bs → s'.Ordered c ∧ s'.Budget c bs := by
    intro done b rest s s' hsorted hdone hstep hmove ⟨hordered, hs⟩
    refine ⟨hmove.ordered hordered, hmove.budget hmax hordered ?_ hs⟩
    exact fun g g' hg hg' => ⟨done, rest, s, s', hsorted, hdone, hg, hstep, hg'⟩
  obtain ⟨s, hrun, -, hs⟩ := exists_foldlM_step (fun _ s => s.Ordered c ∧ s.Budget c bs)
    (bs.mergeSort precedes) hmax ⟨Sweep.ordered_empty c, Sweep.budget_empty c bs⟩ keep
  exact ⟨s.finish c, by rw [sweep, hrun]; rfl, hs.finish⟩

theorem Widened.inBudget (h : Widened c x y) (hx : InBudget c bs x) : InBudget c bs y := by
  cases h with
  | same => exact hx
  | grown span hplain hfirst hlast hmore hsize =>
      have hlong := hx.le_size hplain
      refine ⟨fun _ => hsize, fun _ => ?_, fun _ => .inl hsize⟩
      change c.minLines ≤ span.size
      omega

theorem Widened.tooLongTogether {x' y' : Chunk} (h : Widened c x y) (h' : Widened c x' y')
    (hx : TooLongTogether c x x') : TooLongTogether c y y' := by
  intro hplain hplain'
  have hfirst := h.first_le
  have hlast := h'.le_last
  have := hx (h.origin_eq ▸ hplain) (h'.origin_eq ▸ hplain')
  omega

theorem isChain_of_widened (h : List.Forall₂ (Widened c) xs ys) (hxs : xs.IsChain (TooLongTogether c)) :
    ys.IsChain (TooLongTogether c) := by
  rw [List.isChain_iff_getElem] at hxs ⊢
  intro i hi
  have hlength := h.length_eq
  exact Widened.tooLongTogether (h.get (i := i) (by omega) (by omega)) (h.get (i := i + 1) (by omega) hi)
    (hxs i (by omega))

theorem inBudget_of_widened (h : List.Forall₂ (Widened c) xs ys) (hxs : ∀ x ∈ xs, InBudget c bs x) :
    ∀ y ∈ ys, InBudget c bs y := by
  intro y hy
  obtain ⟨i, hi, rfl⟩ := List.mem_iff_getElem.mp hy
  have hlength := h.length_eq
  exact Widened.inBudget (h.get (i := i) (by omega) hi) (hxs _ (List.getElem_mem _))

end BoundaryChunks

namespace BoundaryChunker

open BoundaryChunks

theorem ofBoundaries_within_budget (language : String) (t : Text) (bs : List Boundary)
    (maxLines minLines : Int) (preserveContext : Bool) (hmax : 1 ≤ maxLines) :
    ∃ chunks, ofBoundaries language t bs maxLines minLines preserveContext = .ok chunks ∧
      let c : BoundaryChunks.Setting := ⟨LineIndex.ofText t, maxLines, minLines, language⟩
      (∀ x ∈ chunks, x.origin.isPart = true → x.span.size ≤ maxLines) ∧
      (∀ x ∈ chunks, x.origin.isPart = false → minLines ≤ x.span.size) ∧
      (∀ x ∈ chunks, x.origin.isPart = false → maxLines < x.span.size →
        ∃ g b g', Turns c bs b g g' ∧ g'.members = g.members ++ [b] ∧ 2 ≤ g'.members.length ∧
          g.span.size < minLines ∧ x = g'.chunk c) ∧
      (minLines ≤ 1 → ∀ x ∈ chunks, x.span.size ≤ maxLines) ∧
      chunks.IsChain fun x y => x.origin.isPart = false → y.origin.isPart = false →
        maxLines < y.span.last - x.span.first + 1 := by
  obtain ⟨plain, hsweep, hplain, hchain⟩ :=
    exists_sweep_budget (c := ⟨LineIndex.ofText t, maxLines, minLines, language⟩) bs hmax
  obtain ⟨chunks, hok, hwide⟩ := exists_ofBoundaries_widened language t preserveContext hsweep
  have hbudget := inBudget_of_widened hwide hplain
  have hover : ∀ x ∈ chunks, x.origin.isPart = false → maxLines < x.span.size →
      Completed ⟨LineIndex.ofText t, maxLines, minLines, language⟩ bs x := fun x hx hplain hlong =>
    ((hbudget x hx).size_le hplain).resolve_left (Int.not_le.mpr hlong)
  refine ⟨chunks, hok, fun x hx => (hbudget x hx).part_le, fun x hx => (hbudget x hx).le_size,
    fun x hx hplain hlong => ?_, fun hmin x hx => ?_, isChain_of_widened hwide hchain⟩
  · obtain ⟨g, b, g', hturns, hmembers, hshort, hchunk⟩ := hover x hx hplain hlong
    refine ⟨g, b, g', hturns, hmembers, ?_, hshort, hchunk⟩
    rw [hmembers, Group.members]
    simp
  · cases hpart : x.origin.isPart with
    | true => exact (hbudget x hx).part_le hpart
    | false =>
        by_contra hlong
        obtain ⟨g, -, -, -, -, hshort, -⟩ := hover x hx hpart (Int.not_le.mp hlong)
        have := g.span.size_pos
        change (g.span.size : Int) < minLines at hshort
        omega

def shortThenFull : List Boundary :=
  [⟨1, 2, .function, some "f"⟩, ⟨4, 6, .function, some "g"⟩]

theorem ofBoundaries_within_budget_shortThenFull :
    ∃ (x : Chunk) (g g' : BoundaryChunks.Group) (b : Boundary),
      ofBoundaries "python" "f\nf\n\ng\ng\ng\n".toList shortThenFull 3 3 true = .ok [x] ∧
      x.span.size = 6 ∧ g'.members = g.members ++ [b] ∧ g.span.size < 3 ∧
      x = g'.chunk ⟨LineIndex.ofText "f\nf\n\ng\ng\ng\n".toList, 3, 3, "python"⟩ := by
  obtain ⟨chunks, hchunks, -, -, hover, -⟩ := ofBoundaries_within_budget "python"
    "f\nf\n\ng\ng\ng\n".toList shortThenFull 3 3 true (by decide)
  obtain ⟨x, hx, hsize, hplain⟩ :
      ∃ x, ofBoundaries "python" "f\nf\n\ng\ng\ng\n".toList shortThenFull 3 3 true = .ok [x] ∧
        x.span.size = 6 ∧ x.origin.isPart = false := by
    rw [ofBoundaries, sweep, List.mergeSort_of_pairwise (by decide)]
    exact ⟨_, rfl, rfl, rfl⟩
  obtain rfl : chunks = [x] := Except.ok.inj (hchunks.symm.trans hx)
  obtain ⟨g, b, g', -, hmembers, -, hshort, hchunk⟩ := hover x (by simp) hplain (by omega)
  exact ⟨x, g, g', b, hx, hsize, hmembers, by omega, hchunk⟩

end BoundaryChunker

end Chunkwise
