import Chunkwise.BoundaryChunks.Chunker
import Chunkwise.Proofs.BoundaryChunks.Empty
import Mathlib.Data.Finset.Card
import Mathlib.Order.Interval.Finset.Nat

namespace Chunkwise

namespace Boundary

def Has (count : Nat) (b : Boundary) (line : Nat) : Prop :=
  max b.first 1 ≤ line ∧ line ≤ min b.last count

instance (count : Nat) (b : Boundary) (line : Nat) : Decidable (b.Has count line) :=
  inferInstanceAs (Decidable (_ ∧ _))

def Structural (count : Nat) (bs : List Boundary) (line : Nat) : Prop :=
  ∃ b ∈ bs, b.Has count line

instance (count : Nat) (bs : List Boundary) (line : Nat) : Decidable (Structural count bs line) :=
  inferInstanceAs (Decidable (∃ b ∈ bs, _))

def lostLines (count : Nat) (bs : List Boundary) (chunks : List Chunk) : Finset Nat :=
  (Finset.Icc 1 count).filter fun line => Structural count bs line ∧ ∀ x ∈ chunks, line ∉ x.span

theorem mem_lostLines_iff {count : Nat} {bs : List Boundary} {chunks : List Chunk} {line : Nat} :
    line ∈ lostLines count bs chunks ↔ Structural count bs line ∧ ∀ x ∈ chunks, line ∉ x.span := by
  rw [lostLines, Finset.mem_filter, Finset.mem_Icc]
  constructor
  · exact fun h => h.2
  · rintro ⟨⟨b, hb, htop, hbottom⟩, hout⟩
    exact ⟨⟨by omega, by omega⟩, ⟨b, hb, htop, hbottom⟩, hout⟩

end Boundary

namespace BoundaryChunks

open Boundary

namespace Sweep

def cuts (c : Setting) (s : Sweep) (b : Boundary) : Bool :=
  (visible b c.index.lineCount s.covered).any fun span => c.maxLines < span.size

def short (c : Setting) (s : Sweep) : List Group :=
  s.group.toList.filter fun g => g.span.size < c.minLines

def next (c : Setting) (s : Sweep) (b : Boundary) : Sweep :=
  match s.step c b with
  | .ok s' => s'
  | .error _ => s

def cutCount (c : Setting) : Sweep → List Boundary → Nat
  | _, [] => 0
  | s, b :: bs => (if s.cuts c b then 1 else 0) + cutCount c (s.next c b) bs

def dropped (c : Setting) : Sweep → List Boundary → List Group
  | s, [] => s.short c
  | s, b :: bs => (if s.cuts c b then s.short c else []) ++ dropped c (s.next c b) bs

end Sweep

def cutCount (c : Setting) (bs : List Boundary) : Nat :=
  Sweep.cutCount c {} (bs.mergeSort precedes)

def dropped (c : Setting) (bs : List Boundary) : List Group :=
  Sweep.dropped c {} (bs.mergeSort precedes)

variable {c : Setting} {s s' : Sweep} {b : Boundary} {done rest : List Boundary} {lost : List Group}
  {line : Nat}

namespace Sweep

theorem mem_short_iff {g : Group} : g ∈ s.short c ↔ s.group = some g ∧ g.span.size < c.minLines := by
  simp [short]

theorem length_short_le (c : Setting) (s : Sweep) : (s.short c).length ≤ 1 := by
  apply Nat.le_trans (List.length_filter_le _ _)
  cases s.group with
  | none => simp
  | some g => simp

theorem size_lt_of_mem_dropped {g : Group} (h : g ∈ dropped c s rest) : g.span.size < c.minLines := by
  induction rest generalizing s with
  | nil => exact (mem_short_iff.mp h).2
  | cons b rest ih =>
      rcases List.mem_append.mp h with h | h
      · split at h
        · exact (mem_short_iff.mp h).2
        · cases h
      · exact ih h

theorem length_dropped_le (c : Setting) (s : Sweep) (rest : List Boundary) :
    (dropped c s rest).length ≤ cutCount c s rest + 1 := by
  induction rest generalizing s with
  | nil => exact length_short_le c s
  | cons b rest ih =>
      have hnext := ih (s.next c b)
      have hshort := length_short_le c s
      rw [dropped, cutCount, List.length_append]
      split
      · omega
      · simpa using hnext

def Holds (s : Sweep) (line : Nat) : Prop :=
  (∃ x ∈ s.chunks.toList, line ∈ x.span) ∨ ∃ g, s.group = some g ∧ line ∈ g.span

def Accounts (s : Sweep) (lost : List Group) (line : Nat) : Prop :=
  s.Holds line ∨ ∃ g ∈ lost, line ∈ g.span

structure Keeps (c : Setting) (done : List Boundary) (lost : List Group) (s : Sweep) : Prop where
  known : ∀ b ∈ done, ∀ line : Nat, b.Has c.index.lineCount line → s.Accounts lost line
  between : ∀ line : Nat, 1 ≤ line → (∀ a ∈ done, a.first ≤ line) → line ≤ s.covered → s.Accounts lost line

theorem keeps_empty (c : Setting) : Keeps c [] [] {} where
  known := by simp
  between := by
    intro line hpos _ hle
    have hcovered : Sweep.covered {} = 0 := covered_of_none rfl
    omega

end Sweep

theorem exists_part_mem {span : Span} {parts : List Chunk} (hmax : 0 < c.maxLines)
    (hlong : c.maxLines < span.size) (hcut : cutBoundary c b span = .ok parts) (hline : line ∈ span) :
    ∃ p ∈ parts, line ∈ p.span := by
  obtain ⟨pieces, hpieces, rfl⟩ := map_eq_ok hcut
  obtain ⟨p, hp, hmem⟩ := Span.exists_mem_pieces hmax
    (lt_shiftLeft_of_le span.size_pos (Int.le_of_lt hlong)) hpieces hline
  obtain ⟨i, hi, rfl⟩ := List.mem_iff_getElem.mp hp
  refine ⟨_, List.mem_map.mpr ⟨(pieces[i], i + 1), ?_, rfl⟩, hmem⟩
  rw [List.mem_iff_getElem?]
  exact ⟨i, by simp [Nat.add_comm]⟩

namespace Move

theorem holds (hmove : Move c s b s') (h : s.Holds line) :
    s'.Holds line ∨ s.cuts c b = true ∧ ∃ g ∈ s.short c, line ∈ g.span := by
  cases hmove with
  | hidden => exact .inl h
  | cut span parts hvisible hlong =>
      have htoList := Sweep.toList_closed c s
      rcases h with ⟨x, hx, hline⟩ | ⟨g, hg, hline⟩
      · exact .inl (.inl ⟨x, by simp [htoList, hx], hline⟩)
      · simp only [hg] at htoList
        by_cases hshort : g.span.size < c.minLines
        · refine .inr ⟨?_, g, Sweep.mem_short_iff.mpr ⟨hg, hshort⟩, hline⟩
          simp [Sweep.cuts, hvisible, hlong]
        · rw [if_pos (Int.not_lt.mp hshort)] at htoList
          exact .inl (.inl ⟨g.chunk c, by simp [htoList], hline⟩)
  | opened span hvisible hfits hgroup =>
      rcases h with hx | ⟨g, hg, -⟩
      · exact .inl (.inl hx)
      · rw [hgroup] at hg
        cases hg
  | flushed span g hvisible hfits hgroup =>
      rcases h with ⟨x, hx, hline⟩ | ⟨g', hg, hline⟩
      · exact .inl (.inl ⟨x, by simp [Array.mem_toList_iff.mp hx], hline⟩)
      · obtain rfl : g = g' := Option.some.inj (hgroup.symm.trans hg)
        exact .inl (.inl ⟨g.chunk c, by simp, hline⟩)
  | joined span g hvisible hfits hgroup =>
      rcases h with hx | ⟨g', hg, hline⟩
      · exact .inl (.inl hx)
      · obtain rfl : g = g' := Option.some.inj (hgroup.symm.trans hg)
        exact .inl (.inr ⟨_, rfl, hline.1, Nat.le_trans hline.2 (Nat.le_max_left _ _)⟩)

theorem holds_new (hmove : Move c s b s') (hs : s.Ordered c) (hmax : 0 < c.maxLines)
    (hfirst : max b.first 1 ≤ line) (hbelow : s.covered < line) (hle : line ≤ s'.covered) :
    s'.Holds line := by
  have hordered := hmove.ordered hs
  cases hmove with
  | hidden => omega
  | cut span parts hvisible hlong hcut =>
      have hspan := visible_eq_some hvisible
      rw [Sweep.covered_of_none rfl] at hle
      obtain ⟨p, hp, hline⟩ := exists_part_mem hmax hlong hcut ⟨by omega, hle⟩
      exact .inl ⟨p, by simp [hp], hline⟩
  | opened span hvisible | flushed span g hvisible =>
      have hspan := visible_eq_some hvisible
      rw [hordered.covered_of_some rfl] at hle
      have hstart : span.first ≤ line := by omega
      exact .inr ⟨_, rfl, hstart, hle⟩
  | joined span g hvisible hfits hgroup =>
      rw [hordered.covered_of_some rfl] at hle
      rw [hs.covered_of_some hgroup] at hbelow
      have hstart : g.span.first ≤ line := Nat.le_of_lt (Nat.lt_of_le_of_lt g.span.first_le_last hbelow)
      exact .inr ⟨_, rfl, hstart, hle⟩

theorem le_covered (hmove : Move c s b s') (hs : s.Ordered c) (hline : b.Has c.index.lineCount line) :
    line ≤ s'.covered := by
  have hordered := hmove.ordered hs
  obtain ⟨hfirst, hlast⟩ := hline
  cases hmove with
  | hidden hvisible =>
      have := visible_eq_none hvisible
      omega
  | cut span parts hvisible =>
      have hspan := visible_eq_some hvisible
      rw [Sweep.covered_of_none rfl]
      change line ≤ span.last
      omega
  | opened span hvisible | flushed span g hvisible =>
      have hspan := visible_eq_some hvisible
      rw [hordered.covered_of_some rfl]
      change line ≤ span.last
      omega
  | joined span g hvisible =>
      have hspan := visible_eq_some hvisible
      rw [hordered.covered_of_some rfl]
      change line ≤ max g.span.last span.last
      omega

theorem accounts (hmove : Move c s b s') (h : s.Accounts lost line) :
    s'.Accounts (lost ++ if s.cuts c b then s.short c else []) line := by
  rcases h with h | ⟨g, hg, hline⟩
  · rcases hmove.holds h with h | ⟨hcuts, g, hg, hline⟩
    · exact .inl h
    · rw [if_pos hcuts]
      exact .inr ⟨g, List.mem_append_right _ hg, hline⟩
  · exact .inr ⟨g, List.mem_append_left _ hg, hline⟩

theorem keeps (hmove : Move c s b s') (hs : s.Ordered c) (hmax : 0 < c.maxLines)
    (hbefore : ∀ a ∈ done, a.first ≤ b.first) (h : s.Keeps c done lost) :
    s'.Keeps c (done ++ [b]) (lost ++ if s.cuts c b then s.short c else []) := by
  -- what lies between is in the old part or newly added
  have hbetween : ∀ line : Nat, max b.first 1 ≤ line → line ≤ s'.covered →
      s'.Accounts (lost ++ if s.cuts c b then s.short c else []) line := by
    intro line hfirst hle
    by_cases hold : line ≤ s.covered
    · apply hmove.accounts
      apply h.between line (by omega) _ hold
      intro a ha
      have := hbefore a ha
      omega
    · exact .inl (hmove.holds_new hs hmax hfirst (Nat.not_le.mp hold) hle)
  constructor
  · intro a ha line hline
    rcases List.mem_append.mp ha with ha | ha
    · exact hmove.accounts (h.known a ha line hline)
    · rw [List.mem_singleton.mp ha] at hline
      exact hbetween line hline.1 (hmove.le_covered hs hline)
  · intro line hpos hfirst hle
    have := hfirst b (by simp)
    exact hbetween line (by omega) hle

end Move

namespace Sweep

theorem next_of_step (h : s.step c b = .ok s') : s.next c b = s' := by
  rw [next, h]

theorem exists_run (hmax : 0 < c.maxLines)
    (hsorted : (done ++ rest).Pairwise fun a b => a.first ≤ b.first) (hs : s.Ordered c)
    (h : s.Keeps c done lost) :
    ∃ s', rest.foldlM (step c) s = .ok s' ∧ s'.Ordered c ∧
      ∀ b ∈ done ++ rest, ∀ line : Nat, b.Has c.index.lineCount line →
        (∃ x ∈ s'.finish c, line ∈ x.span) ∨ ∃ g ∈ lost ++ dropped c s rest, line ∈ g.span := by
  induction rest generalizing s done lost with
  | nil =>
      refine ⟨s, rfl, hs, fun b hb line hline => ?_⟩
      rw [List.append_nil] at hb
      have htoList := toList_closed c s
      rcases h.known b hb line hline with (⟨x, hx, hmem⟩ | ⟨g, hg, hmem⟩) | ⟨g, hg, hmem⟩
      · exact .inl ⟨x, by simp [finish, htoList, hx], hmem⟩
      · simp only [hg] at htoList
        by_cases hshort : g.span.size < c.minLines
        · have hdropped : g ∈ dropped c s [] := mem_short_iff.mpr ⟨hg, hshort⟩
          exact .inr ⟨g, List.mem_append_right _ hdropped, hmem⟩
        · rw [if_pos (Int.not_lt.mp hshort)] at htoList
          exact .inl ⟨g.chunk c, by simp [finish, htoList], hmem⟩
      · exact .inr ⟨g, List.mem_append_left _ hg, hmem⟩
  | cons b rest ih =>
      obtain ⟨s', hstep, hmove⟩ := exists_move hmax s b
      have hbefore : ∀ a ∈ done, a.first ≤ b.first := fun a ha =>
        (List.pairwise_append.mp hsorted).2.2 a ha b List.mem_cons_self
      obtain ⟨s'', hrun, hordered, hall⟩ := ih (by simpa using hsorted) (hmove.ordered hs)
        (hmove.keeps hs hmax hbefore h)
      refine ⟨s'', ?_, hordered, ?_⟩
      · rw [List.foldlM_cons, hstep]
        exact hrun
      · rw [dropped, next_of_step hstep, ← List.append_assoc]
        simpa using hall

end Sweep

end BoundaryChunks

end Chunkwise
