import Chunkwise.BoundaryChunks.Context
import Chunkwise.Proofs.BoundaryChunks.Move

namespace Chunkwise

namespace BoundaryChunks

variable {c : Setting} {s s' : Sweep} {b : Boundary}

structure Stack (c : Setting) (bottom : Nat) (chunks : List Chunk) : Prop where
  pairwise : chunks.Pairwise fun x y => x.span.last < y.span.first
  last_le : ∀ x ∈ chunks, x.span.last ≤ bottom
  text_eq : ∀ x ∈ chunks, x.text = c.index.extract x.span.first x.span.last

theorem Stack.nil (c : Setting) (bottom : Nat) : Stack c bottom [] :=
  ⟨.nil, by simp, by simp⟩

theorem Stack.mono {m n : Nat} {xs : List Chunk} (h : Stack c m xs) (hle : m ≤ n) : Stack c n xs :=
  ⟨h.pairwise, fun x hx => Nat.le_trans (h.last_le x hx) hle, h.text_eq⟩

theorem Stack.append {m n : Nat} {xs ys : List Chunk} (hx : Stack c m xs) (hy : Stack c n ys)
    (hbelow : ∀ y ∈ ys, m < y.span.first) (hle : m ≤ n) : Stack c n (xs ++ ys) where
  pairwise := List.pairwise_append.mpr ⟨hx.pairwise, hy.pairwise, fun x hxs y hys =>
    Nat.lt_of_le_of_lt (hx.last_le x hxs) (hbelow y hys)⟩
  last_le x hxy := by
    rcases List.mem_append.mp hxy with h | h
    · exact Nat.le_trans (hx.last_le x h) hle
    · exact hy.last_le x h
  text_eq x hxy := by
    rcases List.mem_append.mp hxy with h | h
    · exact hx.text_eq x h
    · exact hy.text_eq x h

theorem Parts.stack {span : Span} {parts : List Chunk} (h : Parts c span parts) :
    Stack c span.last parts where
  pairwise := List.pairwise_map.mp h.cut.pairwise
  last_le _ hp := h.cut.last_le (List.mem_map_of_mem hp)
  text_eq := h.text_eq

theorem Parts.first_le {span : Span} {parts : List Chunk} (h : Parts c span parts) {p : Chunk}
    (hp : p ∈ parts) : span.first ≤ p.span.first :=
  h.cut.first_le (List.mem_map_of_mem hp)

theorem stack_chunk (c : Setting) (g : Group) : Stack c g.span.last [g.chunk c] where
  pairwise := by simp
  last_le := by simp [Group.chunk]
  text_eq := by simp [Group.chunk]

theorem Sweep.toList_closed (c : Setting) (s : Sweep) :
    (s.closed c).toList = s.chunks.toList ++
      match s.group with
      | none => []
      | some g => if c.minLines ≤ g.span.size then [g.chunk c] else [] := by
  cases hg : s.group with
  | none => simp [closed, hg]
  | some g =>
      simp only [closed, hg]
      split
      · rw [Array.toList_push]
      · rw [List.append_nil]

structure Sweep.Ordered (c : Setting) (s : Sweep) : Prop where
  emitted_le : s.emitted ≤ c.index.lineCount
  below : ∀ g, s.group = some g → s.emitted < g.span.first
  last_le : ∀ g, s.group = some g → g.span.last ≤ c.index.lineCount
  stack : Stack c s.emitted s.chunks.toList

namespace Sweep

theorem covered_of_none (h : s.group = none) : s.covered = s.emitted := by
  simp [covered, h]

theorem Ordered.covered_of_some (hs : s.Ordered c) {g : Group} (h : s.group = some g) :
    s.covered = g.span.last := by
  have h₁ := hs.below g h
  have h₂ := g.span.first_le_last
  simp only [covered, h, Option.elim_some]
  omega

theorem Ordered.covered_le (hs : s.Ordered c) : s.covered ≤ c.index.lineCount := by
  cases hg : s.group with
  | none =>
      rw [covered_of_none hg]
      exact hs.emitted_le
  | some g =>
      rw [hs.covered_of_some hg]
      exact hs.last_le g hg

theorem emitted_le_covered (s : Sweep) : s.emitted ≤ s.covered :=
  Nat.le_max_left _ _

theorem Ordered.stack_push (hs : s.Ordered c) {g : Group} (h : s.group = some g) :
    Stack c g.span.last (s.chunks.push (g.chunk c)).toList := by
  have h₁ := hs.below g h
  have h₂ := g.span.first_le_last
  rw [Array.toList_push]
  exact hs.stack.append (stack_chunk c g) (by simpa [Group.chunk] using h₁) (by omega)

theorem Ordered.stack_closed (hs : s.Ordered c) : Stack c s.covered (s.closed c).toList := by
  rw [closed]
  split
  · exact hs.stack.mono s.emitted_le_covered
  · next g hg =>
      split
      · rw [hs.covered_of_some hg]
        exact hs.stack_push hg
      · exact hs.stack.mono s.emitted_le_covered

end Sweep

theorem covered_lt_first {span : Span} (h : visible b c.index.lineCount s.covered = some span) :
    s.covered < span.first := by
  have := visible_eq_some h
  omega

theorem last_le_lineCount {span : Span}
    (h : visible b c.index.lineCount s.covered = some span) : span.last ≤ c.index.lineCount := by
  have := visible_eq_some h
  omega

theorem Move.ordered (hmove : Move c s b s') (hs : s.Ordered c) : s'.Ordered c := by
  cases hmove with
  | hidden => exact hs
  | cut span parts hvisible hlong hcut hparts =>
      have hlt := covered_lt_first hvisible
      have hle := last_le_lineCount hvisible
      refine ⟨hle, by simp, by simp, ?_⟩
      rw [Array.toList_appendList]
      refine hs.stack_closed.append hparts.stack (fun p hp => ?_) ?_
      · have := hparts.first_le hp
        omega
      · change s.covered ≤ span.last
        have := span.first_le_last
        omega
  | opened span hvisible hfits hgroup =>
      have hlt := covered_lt_first hvisible
      rw [Sweep.covered_of_none hgroup] at hlt
      refine ⟨hs.emitted_le, ?_, ?_, hs.stack⟩
      · rintro g ⟨⟩
        exact hlt
      · rintro g ⟨⟩
        exact last_le_lineCount hvisible
  | flushed span g hvisible hfits hgroup hfull hlong =>
      have hlt := covered_lt_first hvisible
      rw [hs.covered_of_some hgroup] at hlt
      refine ⟨hs.last_le g hgroup, ?_, ?_, hs.stack_push hgroup⟩
      · rintro g' ⟨⟩
        exact hlt
      · rintro g' ⟨⟩
        exact last_le_lineCount hvisible
  | joined span g hvisible hfits hgroup hroom =>
      have hle := last_le_lineCount hvisible
      refine ⟨hs.emitted_le, ?_, ?_, hs.stack⟩
      · rintro g' ⟨⟩
        exact hs.below g hgroup
      · rintro g' ⟨⟩
        exact Nat.max_le.mpr ⟨hs.last_le g hgroup, hle⟩

theorem Sweep.ordered_empty (c : Setting) : Sweep.Ordered c {} :=
  ⟨Nat.zero_le _, by simp, by simp, Stack.nil c 0⟩

theorem growUp_last (c : Setting) (x : Chunk) : (growUp c x).span.last = x.span.last := by
  rw [growUp]
  split <;> rfl

theorem growDown_first (c : Setting) (x : Chunk) : (growDown c x).span.first = x.span.first := by
  rw [growDown]
  split
  · split <;> rfl
  · rfl

theorem growDown_last (c : Setting) (x : Chunk) :
    (growDown c x).span.last = x.span.last ∨
      x.span.last < c.index.lineCount ∧ (growDown c x).span.last = c.index.lineCount := by
  rw [growDown]
  split
  · next h =>
      split
      · exact .inl rfl
      · exact .inr ⟨h, rfl⟩
  · exact .inl rfl

theorem growUp_first_le (c : Setting) (x : Chunk) : (growUp c x).span.first ≤ x.span.first := by
  rw [growUp]
  split
  · exact Nat.le_refl _
  · exact x.span.one_le_first

theorem growUp_part (c : Setting) {x : Chunk} (h : x.origin.isPart = true) : growUp c x = x := by
  simp [growUp, h]

theorem growDown_part (c : Setting) {x : Chunk} (h : x.origin.isPart = true) : growDown c x = x := by
  simp [growDown, h]

theorem growUp_text {x : Chunk} (h : x.text = c.index.extract x.span.first x.span.last) :
    (growUp c x).text = c.index.extract (growUp c x).span.first (growUp c x).span.last := by
  rw [growUp]
  split
  · exact h
  · rfl

theorem growDown_text {x : Chunk} (h : x.text = c.index.extract x.span.first x.span.last) :
    (growDown c x).text = c.index.extract (growDown c x).span.first (growDown c x).span.last := by
  rw [growDown]
  split
  · split
    · exact h
    · rfl
  · exact h

@[simp] theorem length_changeFirst (f : Chunk → Chunk) (xs : List Chunk) :
    (changeFirst f xs).length = xs.length := by
  cases xs with
  | nil => rfl
  | cons x xs => rfl

@[simp] theorem length_changeLast (f : Chunk → Chunk) (xs : List Chunk) :
    (changeLast f xs).length = xs.length := by
  simp [changeLast]

@[simp] theorem length_withContext (c : Setting) (xs : List Chunk) :
    (withContext c xs).length = xs.length := by
  simp [withContext]

theorem changeLast_concat (f : Chunk → Chunk) (xs : List Chunk) (x : Chunk) :
    changeLast f (xs ++ [x]) = xs ++ [f x] := by
  simp [changeLast, changeFirst]

theorem Stack.growUp {bottom : Nat} {xs : List Chunk} (h : Stack c bottom xs) :
    Stack c bottom (changeFirst (growUp c) xs) := by
  cases xs with
  | nil => exact h
  | cons x xs =>
      obtain ⟨hx, hxs⟩ := List.pairwise_cons.mp h.pairwise
      refine ⟨List.pairwise_cons.mpr ⟨?_, hxs⟩, ?_, ?_⟩
      · rw [growUp_last]
        exact hx
      · simp only [changeFirst, List.forall_mem_cons, growUp_last]
        exact List.forall_mem_cons.mp h.last_le
      · simp only [changeFirst, List.forall_mem_cons]
        exact ⟨growUp_text (h.text_eq x List.mem_cons_self),
          fun y hy => h.text_eq y (List.mem_cons_of_mem _ hy)⟩

theorem Stack.growDown {xs : List Chunk} (h : Stack c c.index.lineCount xs) :
    Stack c c.index.lineCount (changeLast (growDown c) xs) := by
  rcases List.eq_nil_or_concat xs with rfl | ⟨xs, x, rfl⟩
  · exact h
  · rw [List.concat_eq_append] at h ⊢
    obtain ⟨hxs, -, hx⟩ := List.pairwise_append.mp h.pairwise
    rw [changeLast_concat]
    refine ⟨List.pairwise_append.mpr ⟨hxs, by simp, ?_⟩, ?_, ?_⟩
    · simpa [growDown_first] using hx
    · intro y hy
      rcases List.mem_append.mp hy with hy | hy
      · exact h.last_le y (List.mem_append_left _ hy)
      · rw [List.mem_singleton.mp hy]
        have := h.last_le x (by simp)
        have := growDown_last c x
        omega
    · intro y hy
      rcases List.mem_append.mp hy with hy | hy
      · exact h.text_eq y (List.mem_append_left _ hy)
      · rw [List.mem_singleton.mp hy]
        exact growDown_text (h.text_eq x (by simp))

theorem Stack.withContext {xs : List Chunk} (h : Stack c c.index.lineCount xs) :
    Stack c c.index.lineCount (withContext c xs) :=
  h.growUp.growDown

theorem Sweep.Ordered.stack_finish (hs : s.Ordered c) :
    Stack c c.index.lineCount (s.finish c) :=
  hs.stack_closed.mono hs.covered_le

theorem exists_sweep_stack (c : Setting) (h : 0 < c.maxLines) (bs : List Boundary) :
    ∃ chunks, sweep c bs = .ok chunks ∧ Stack c c.index.lineCount chunks := by
  obtain ⟨s, hsweep, hs⟩ := exists_sweep (fun _ s => s.Ordered c) bs h
    (Sweep.ordered_empty c) fun _ _ _ _ _ _ hs hmove => hmove.ordered hs
  exact ⟨_, hsweep, hs.stack_finish⟩

end BoundaryChunks

end Chunkwise
