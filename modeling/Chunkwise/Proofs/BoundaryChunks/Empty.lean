import Chunkwise.Proofs.BoundaryChunks.Order

namespace Chunkwise

namespace Boundary

def top (b : Boundary) : Int :=
  max b.first 1

def bottom (count : Nat) (b : Boundary) : Int :=
  min b.last count

def Visible (count : Nat) (b : Boundary) : Prop :=
  b.top ≤ b.bottom count

instance (count : Nat) (b : Boundary) : Decidable (b.Visible count) :=
  inferInstanceAs (Decidable (_ ≤ _))

def Stretch (count : Nat) (lines : Int) (bs : List Boundary) : Prop :=
  ∃ a ∈ bs, ∃ b ∈ bs, a.Visible count ∧ b.Visible count ∧ lines ≤ b.bottom count - a.top + 1

instance (count : Nat) (lines : Int) (bs : List Boundary) : Decidable (Stretch count lines bs) :=
  inferInstanceAs (Decidable (∃ a ∈ bs, ∃ b ∈ bs, _))

theorem Stretch.mono {count : Nat} {lines : Int} {as bs : List Boundary} (h : Stretch count lines as)
    (hsub : ∀ a ∈ as, a ∈ bs) : Stretch count lines bs := by
  obtain ⟨a, ha, b, hb, hstretch⟩ := h
  exact ⟨a, hsub a ha, b, hsub b hb, hstretch⟩

structure Hull (count : Nat) (bs : List Boundary) (s : Span) : Prop where
  first : ∃ a ∈ bs, a.Visible count ∧ a.top = s.first
  last : ∃ b ∈ bs, b.Visible count ∧ b.bottom count = s.last
  within : ∀ b ∈ bs, b.Visible count → s.first ≤ b.top ∧ b.bottom count ≤ s.last

theorem Hull.stretch_iff {count : Nat} {lines : Int} {bs : List Boundary} {s : Span}
    (h : Hull count bs s) : Stretch count lines bs ↔ lines ≤ s.size := by
  have hspan := s.first_le_last
  have hsize : (s.size : Int) = s.last - s.first + 1 := by
    rw [Span.size]
    omega
  constructor
  · rintro ⟨a, ha, b, hb, hva, hvb, hlines⟩
    have h₁ := h.within a ha hva
    have h₂ := h.within b hb hvb
    omega
  · intro hlines
    obtain ⟨a, ha, hva, htop⟩ := h.first
    obtain ⟨b, hb, hvb, hbottom⟩ := h.last
    exact ⟨a, ha, b, hb, hva, hvb, by omega⟩

end Boundary

namespace BoundaryChunks

open Boundary

variable {c : Setting} {s s' : Sweep} {b : Boundary} {bs done : List Boundary} {span : Span}

theorem visible_of_eq_some {count below : Nat} (h : visible b count below = some span) :
    b.Visible count ∧ b.top ≤ span.first ∧ b.bottom count = span.last := by
  have hspan := visible_eq_some h
  have hle := span.first_le_last
  simp only [Boundary.Visible, Boundary.top, Boundary.bottom]
  omega

theorem not_visible_of_eq_none {count : Nat} (h : visible b count 0 = none) : ¬ b.Visible count := by
  have hnone := visible_eq_none h
  simp only [Boundary.Visible, Boundary.top, Boundary.bottom]
  omega

theorem stretch_of_visible {count below : Nat} {lines : Int} (done : List Boundary)
    (h : visible b count below = some span) (hlines : lines ≤ span.size) :
    Stretch count lines (done ++ [b]) := by
  obtain ⟨hvisible, htop, hbottom⟩ := visible_of_eq_some h
  have hle := span.first_le_last
  rw [Span.size] at hlines
  exact ⟨b, by simp, b, by simp, hvisible, hvisible, by omega⟩

theorem hull_single {count : Nat} (hhidden : ∀ a ∈ done, ¬ a.Visible count)
    (h : visible b count 0 = some span) : Hull count (done ++ [b]) span := by
  obtain ⟨hvisible, htop, hbottom⟩ := visible_of_eq_some h
  have hspan := visible_eq_some h
  have hfirst : b.top = span.first := by
    rw [Boundary.top]
    omega
  refine ⟨⟨b, by simp, hvisible, hfirst⟩, ⟨b, by simp, hvisible, hbottom⟩, fun a ha hva => ?_⟩
  rcases List.mem_append.mp ha with ha | ha
  · exact absurd hva (hhidden a ha)
  · rw [List.mem_singleton.mp ha]
    omega

section Growing

variable {count : Nat} {hull : Span}

theorem first_le_top (hhull : Hull count done hull)
    (hbefore : ∀ a ∈ done, a.first < b.first ∨ a.first = b.first ∧ b.last ≤ a.last) :
    hull.first ≤ b.top := by
  obtain ⟨a, ha, -, htop⟩ := hhull.first
  have := hbefore a ha
  simp only [Boundary.top] at htop ⊢
  omega

theorem hull_hidden (hhull : Hull count done hull)
    (hbefore : ∀ a ∈ done, a.first < b.first ∨ a.first = b.first ∧ b.last ≤ a.last)
    (h : visible b count hull.last = none) : Hull count (done ++ [b]) hull := by
  have hfirst := first_le_top hhull hbefore
  have hnone := visible_eq_none h
  obtain ⟨⟨a, ha, hva, htop⟩, ⟨d, hd, hvd, hbottom⟩, hwithin⟩ := hhull
  refine ⟨⟨a, List.mem_append_left _ ha, hva, htop⟩, ⟨d, List.mem_append_left _ hd, hvd, hbottom⟩,
    fun e he hve => ?_⟩
  rcases List.mem_append.mp he with he | he
  · exact hwithin e he hve
  · rw [List.mem_singleton.mp he] at hve ⊢
    refine ⟨hfirst, ?_⟩
    simp only [Boundary.Visible, Boundary.top, Boundary.bottom] at hve ⊢
    omega

theorem hull_joined (hhull : Hull count done hull)
    (hbefore : ∀ a ∈ done, a.first < b.first ∨ a.first = b.first ∧ b.last ≤ a.last)
    (h : visible b count hull.last = some span) :
    Hull count (done ++ [b]) (hull.extendTo span.last) := by
  have hfirst := first_le_top hhull hbefore
  obtain ⟨hvisible, -, hbottom⟩ := visible_of_eq_some h
  have hspan := visible_eq_some h
  have hle := span.first_le_last
  have hend : (hull.extendTo span.last).last = span.last := Nat.max_eq_right (by omega)
  obtain ⟨⟨a, ha, hva, htop⟩, -, hwithin⟩ := hhull
  refine ⟨⟨a, List.mem_append_left _ ha, hva, htop⟩, ⟨b, by simp, hvisible, ?_⟩, fun e he hve => ?_⟩
  · rw [hend]
    exact hbottom
  · rw [hend]
    rcases List.mem_append.mp he with he | he
    · have := hwithin e he hve
      exact ⟨this.1, by omega⟩
    · rw [List.mem_singleton.mp he]
      exact ⟨hfirst, Int.le_of_eq hbottom⟩

end Growing

inductive Sweep.Gathers (c : Setting) (done : List Boundary) (s : Sweep) : Prop
  | emitted (hchunks : s.chunks ≠ #[]) (hstretch : Stretch c.index.lineCount c.minLines done)
  | nothing (hchunks : s.chunks = #[]) (hemitted : s.emitted = 0) (hgroup : s.group = none)
      (hhidden : ∀ b ∈ done, ¬ b.Visible c.index.lineCount)
  | gathered (g : Group) (hchunks : s.chunks = #[]) (hemitted : s.emitted = 0)
      (hgroup : s.group = some g) (hhull : Hull c.index.lineCount done g.span)

theorem Sweep.Gathers.finish_ne_nil_iff (hs : s.Gathers c done) :
    s.finish c ≠ [] ↔ Stretch c.index.lineCount c.minLines done := by
  have htoList := Sweep.toList_closed c s
  rw [Sweep.finish, htoList]
  cases hs with
  | emitted hchunks hstretch =>
      have hne : s.chunks.toList ≠ [] := fun h => hchunks (Array.toList_eq_nil_iff.mp h)
      exact iff_of_true (List.append_ne_nil_of_left_ne_nil hne _) hstretch
  | nothing hchunks hemitted hgroup hhidden =>
      refine iff_of_false ?_ ?_
      · simp [hchunks, hgroup]
      · rintro ⟨a, ha, -, -, hvisible, -⟩
        exact hhidden a ha hvisible
  | gathered g hchunks hemitted hgroup hhull =>
      rw [hhull.stretch_iff]
      simp only [hchunks, hgroup]
      split
      · next hlong => simpa using hlong
      · next hshort => simpa using hshort

theorem appendList_ne_empty (chunks : Array Chunk) {parts : List Chunk} (h : parts ≠ []) :
    chunks ++ parts ≠ #[] := by
  intro hnil
  have := congrArg Array.toList hnil
  rw [Array.toList_appendList] at this
  exact h (List.append_eq_nil_iff.mp this).2

namespace Move

theorem chunks_ne_empty (hmove : Move c s b s') (h : s.chunks ≠ #[]) : s'.chunks ≠ #[] := by
  cases hmove with
  | hidden => exact h
  | cut span parts hvisible hlong hcut hparts => exact appendList_ne_empty _ hparts.ne_nil
  | opened => exact h
  | flushed => simp
  | joined => exact h

theorem gathers_of_nothing (hmove : Move c s b s') (hmin : c.minLines ≤ c.maxLines)
    (hchunks : s.chunks = #[]) (hemitted : s.emitted = 0) (hgroup : s.group = none)
    (hhidden : ∀ a ∈ done, ¬ a.Visible c.index.lineCount) : s'.Gathers c (done ++ [b]) := by
  have hcovered : s.covered = 0 := by rw [Sweep.covered_of_none hgroup, hemitted]
  cases hmove with
  | hidden hvisible =>
      rw [hcovered] at hvisible
      refine .nothing hchunks hemitted hgroup fun a ha => ?_
      rcases List.mem_append.mp ha with ha | ha
      · exact hhidden a ha
      · rw [List.mem_singleton.mp ha]
        exact not_visible_of_eq_none hvisible
  | cut span parts hvisible hlong hcut hparts =>
      exact .emitted (appendList_ne_empty _ hparts.ne_nil)
        (stretch_of_visible done hvisible (by omega))
  | opened span hvisible hshort hnone =>
      rw [hcovered] at hvisible
      exact .gathered _ hchunks hemitted rfl (hull_single hhidden hvisible)
  | flushed span g hvisible hshort hsome | joined span g hvisible hshort hsome =>
      rw [hgroup] at hsome
      cases hsome

theorem gathers_of_gathered {g : Group} (hmove : Move c s b s') (hmin : c.minLines ≤ c.maxLines)
    (hbefore : ∀ a ∈ done, a.first < b.first ∨ a.first = b.first ∧ b.last ≤ a.last)
    (hordered : s.Ordered c) (hchunks : s.chunks = #[]) (hemitted : s.emitted = 0)
    (hgroup : s.group = some g) (hhull : Hull c.index.lineCount done g.span) :
    s'.Gathers c (done ++ [b]) := by
  have hcovered := hordered.covered_of_some hgroup
  cases hmove with
  | hidden hvisible =>
      rw [hcovered] at hvisible
      exact .gathered g hchunks hemitted hgroup (hull_hidden hhull hbefore hvisible)
  | cut span parts hvisible hlong hcut hparts =>
      exact .emitted (appendList_ne_empty _ hparts.ne_nil)
        (stretch_of_visible done hvisible (by omega))
  | opened span hvisible hshort hnone =>
      rw [hnone] at hgroup
      cases hgroup
  | flushed span g' hvisible hshort hsome hfull hlong =>
      obtain rfl : g' = g := Option.some.inj (hsome.symm.trans hgroup)
      have hstretch := hhull.stretch_iff.mpr hlong
      exact .emitted (by simp) (hstretch.mono fun a ha => List.mem_append_left _ ha)
  | joined span g' hvisible hshort hsome hroom =>
      obtain rfl : g' = g := Option.some.inj (hsome.symm.trans hgroup)
      rw [hcovered] at hvisible
      exact .gathered _ hchunks hemitted rfl (hull_joined hhull hbefore hvisible)

theorem gathers (hmove : Move c s b s') (hmin : c.minLines ≤ c.maxLines)
    (hbefore : ∀ a ∈ done, a.first < b.first ∨ a.first = b.first ∧ b.last ≤ a.last)
    (hordered : s.Ordered c) (hs : s.Gathers c done) : s'.Gathers c (done ++ [b]) := by
  cases hs with
  | emitted hchunks hstretch =>
      exact .emitted (hmove.chunks_ne_empty hchunks)
        (hstretch.mono fun a ha => List.mem_append_left _ ha)
  | nothing hchunks hemitted hgroup hhidden =>
      exact hmove.gathers_of_nothing hmin hchunks hemitted hgroup hhidden
  | gathered g hchunks hemitted hgroup hhull =>
      exact hmove.gathers_of_gathered hmin hbefore hordered hchunks hemitted hgroup hhull

end Move

theorem exists_sweep_ne_nil_iff (bs : List Boundary) (hmax : 0 < c.maxLines)
    (hmin : c.minLines ≤ c.maxLines) :
    ∃ chunks, sweep c bs = .ok chunks ∧
      (chunks ≠ [] ↔ Stretch c.index.lineCount c.minLines bs) := by
  obtain ⟨s, hsweep, -, hs⟩ := exists_sweep (fun done s => s.Ordered c ∧ s.Gathers c done) bs hmax
    ⟨Sweep.ordered_empty c, .nothing rfl rfl rfl (by simp)⟩
    fun _ _ _ _ _ hsorted ⟨hordered, hs⟩ hmove =>
      ⟨hmove.ordered hordered, hmove.gathers hmin (before_of_sorted hsorted) hordered hs⟩
  refine ⟨_, hsweep, hs.finish_ne_nil_iff.trans ⟨fun h => h.mono ?_, fun h => h.mono ?_⟩⟩
  · exact fun a ha => List.mem_mergeSort.mp ha
  · exact fun a ha => List.mem_mergeSort.mpr ha

theorem withContext_ne_nil_iff (chunks : List Chunk) : withContext c chunks ≠ [] ↔ chunks ≠ [] := by
  rw [← List.length_pos_iff, length_withContext, List.length_pos_iff]

end BoundaryChunks

end Chunkwise
