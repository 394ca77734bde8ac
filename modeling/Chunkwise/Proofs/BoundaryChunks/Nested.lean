import Chunkwise.Proofs.BoundaryChunks.Order

namespace Chunkwise

namespace Boundary

def Within (a b : Boundary) : Prop :=
  b.first ≤ a.first ∧ a.last ≤ b.last

instance (a b : Boundary) : Decidable (a.Within b) :=
  inferInstanceAs (Decidable (_ ∧ _))

def Inside (b : Boundary) (s : Span) : Prop :=
  s.first ≤ b.first ∧ b.last ≤ s.last

def Apart (b : Boundary) (s : Span) : Prop :=
  b.last < s.first ∨ s.last < b.first

structure Nested (count : Nat) (bs : List Boundary) : Prop where
  one_le_first : ∀ b ∈ bs, 1 ≤ b.first
  first_le_last : ∀ b ∈ bs, b.first ≤ b.last
  last_le : ∀ b ∈ bs, b.last ≤ count
  nested : ∀ a ∈ bs, ∀ b ∈ bs,
    a.Within b ∨ b.Within a ∨ a.last < b.first ∨ b.last < a.first

def Fits (maxLines : Int) (bs : List Boundary) (b : Boundary) : Prop :=
  ∀ a ∈ bs, b.Within a → a.size ≤ maxLines

instance (maxLines : Int) (bs : List Boundary) (b : Boundary) : Decidable (b.Fits maxLines bs) :=
  inferInstanceAs (Decidable (∀ a ∈ bs, _))

end Boundary

namespace BoundaryChunks

open Boundary

variable {c : Setting} {s s' : Sweep} {b : Boundary} {bs done : List Boundary} {span : Span}
  {parts : List Chunk}

inductive Fate (s : Sweep) (b : Boundary) : Prop
  | gathered (g : Group) (hgroup : s.group = some g) (hinside : b.Inside g.span)
  | emitted (x : Chunk) (hx : x ∈ s.chunks.toList) (hinside : b.Inside x.span)
  | dropped (above : List Chunk) (p : Chunk) (below : List Chunk)
      (hchunks : s.chunks.toList = above ++ p :: below) (hpart : p.origin.isPart = true)
      (habove : ∀ x ∈ above, x.span.last < b.first) (hbelow : b.last < p.span.first)

structure Sweep.Tracks (c : Setting) (bs done : List Boundary) (s : Sweep) : Prop where
  ordered : s.Ordered c
  covered : s.covered = 0 ∨ ∃ a ∈ done, a.last = s.covered
  opened : ∀ g, s.group = some g → ∃ a ∈ done, a.first = g.span.first
  closed : s.group = none → s.emitted = 0 ∨ ∃ a ∈ done, c.maxLines < a.size ∧ a.last = s.emitted
  fate : ∀ a ∈ done, a.Fits c.maxLines bs → Fate s a

structure Next (c : Setting) (bs done : List Boundary) (b : Boundary) : Prop where
  nested : Nested c.index.lineCount bs
  mem : b ∈ bs
  mem_done : ∀ a ∈ done, a ∈ bs
  before : ∀ a ∈ done, a.first < b.first ∨ a.first = b.first ∧ b.last ≤ a.last

theorem Next.of_sorted (hn : Nested c.index.lineCount bs) {rest : List Boundary}
    (h : bs.mergeSort precedes = done ++ b :: rest) : Next c bs done b where
  nested := hn
  mem := by
    rw [← List.mem_mergeSort (a := b), h]
    exact List.mem_append_right _ List.mem_cons_self
  mem_done a ha := by
    rw [← List.mem_mergeSort (a := a), h]
    exact List.mem_append_left _ ha
  before := before_of_sorted h

namespace Next

theorem last_lt_first (hb : Next c bs done b) {a : Boundary} (ha : a ∈ done)
    (h : a.last < b.last) : a.last < b.first := by
  have h₁ := hb.before a ha
  have h₂ := hb.nested.nested a (hb.mem_done a ha) b hb.mem
  have h₃ := hb.nested.first_le_last a (hb.mem_done a ha)
  have h₄ := hb.nested.first_le_last b hb.mem
  simp only [Within] at h₂
  omega

theorem visible_all (hb : Next c bs done b) (hs : s.Tracks c bs done)
    (h : visible b c.index.lineCount s.covered = some span) :
    (span.first : Int) = b.first ∧ (span.last : Int) = b.last := by
  have hspan := visible_eq_some h
  have h₁ := hb.nested.one_le_first b hb.mem
  have h₂ := hb.nested.last_le b hb.mem
  have h₃ := span.first_le_last
  rcases hs.covered with h₀ | ⟨a, ha, hlast⟩
  · omega
  · have := hb.last_lt_first ha (by omega)
    omega

theorem hidden_le (hb : Next c bs done b) (hs : s.Tracks c bs done)
    (h : visible b c.index.lineCount s.covered = none) : b.last ≤ s.covered := by
  have hnone := visible_eq_none h
  have h₁ := hb.nested.one_le_first b hb.mem
  have h₂ := hb.nested.last_le b hb.mem
  have h₃ := hb.nested.first_le_last b hb.mem
  rcases hs.covered with h₀ | ⟨a, ha, hlast⟩
  · omega
  · by_contra hlt
    have := hb.last_lt_first ha (by omega)
    omega

theorem hidden_fate (hb : Next c bs done b) (hs : s.Tracks c bs done)
    (h : visible b c.index.lineCount s.covered = none) (hfits : b.Fits c.maxLines bs) :
    Fate s b := by
  have hle := hb.hidden_le hs h
  have hpos := hb.nested.one_le_first b hb.mem
  have hlen := hb.nested.first_le_last b hb.mem
  cases hg : s.group with
  | some g =>
      rw [hs.ordered.covered_of_some hg] at hle
      obtain ⟨a, ha, hfirst⟩ := hs.opened g hg
      have := hb.before a ha
      exact .gathered g hg ⟨by omega, hle⟩
  | none =>
      rw [Sweep.covered_of_none hg] at hle
      rcases hs.closed hg with h₀ | ⟨a, ha, hlong, hlast⟩
      · omega
      · have := hb.before a ha
        have := hfits a (hb.mem_done a ha) ⟨by omega, by omega⟩
        omega

end Next

theorem Fate.carry {a : Boundary} (h : Fate s a) (more : List Chunk)
    (hchunks : s'.chunks.toList = s.chunks.toList ++ more)
    (hgroup : ∀ g, s.group = some g → a.Inside g.span → Fate s' a) : Fate s' a := by
  cases h with
  | gathered g hg hinside => exact hgroup g hg hinside
  | emitted x hx hinside =>
      exact .emitted x (hchunks ▸ List.mem_append_left _ hx) hinside
  | dropped above p below hsplit hpart habove hbelow =>
      refine .dropped above p (below ++ more) ?_ hpart habove hbelow
      rw [hchunks, hsplit, List.append_assoc, List.cons_append]

theorem fate_of_cut {a : Boundary} {g : Group} (hs : s.Ordered c) (hg : s.group = some g)
    (hinside : a.Inside g.span) (hbelow : a.last < span.first) (hparts : Parts c span parts) :
    Fate ⟨span.last, none, s.closed c ++ parts⟩ a := by
  have htoList := Sweep.toList_closed c s
  simp only [hg] at htoList
  split at htoList
  · refine .emitted (g.chunk c) ?_ hinside
    simp [htoList]
  · obtain ⟨p, rest, rfl⟩ := List.exists_cons_of_ne_nil hparts.ne_nil
    refine .dropped s.chunks.toList p rest ?_ (hparts.isPart p List.mem_cons_self) ?_ ?_
    · simp [htoList]
    · intro x hx
      have h₁ := hs.stack.last_le x hx
      have h₂ := hs.below g hg
      have h₃ := hinside.1
      omega
    · have := hparts.first_le List.mem_cons_self
      omega

namespace Sweep.Tracks

theorem fate_concat (hs : s.Tracks c bs done) (hold : ∀ a ∈ done, Fate s a → Fate s' a)
    (hnew : b.Fits c.maxLines bs → Fate s' b) :
    ∀ a ∈ done ++ [b], a.Fits c.maxLines bs → Fate s' a := by
  intro a ha hfits
  rcases List.mem_append.mp ha with ha | ha
  · exact hold a ha (hs.fate a ha hfits)
  · rw [List.mem_singleton.mp ha] at hfits ⊢
    exact hnew hfits

theorem hidden (hs : s.Tracks c bs done) (hb : Next c bs done b)
    (hvisible : visible b c.index.lineCount s.covered = none) : s.Tracks c bs (done ++ [b]) := by
  have hdone : ∀ a ∈ done, a ∈ done ++ [b] := fun a ha => List.mem_append_left _ ha
  refine ⟨hs.ordered, ?_, ?_, ?_, hs.fate_concat (fun a _ h => h) (hb.hidden_fate hs hvisible)⟩
  · exact hs.covered.imp id fun ⟨a, ha, h⟩ => ⟨a, hdone a ha, h⟩
  · intro g hg
    obtain ⟨a, ha, h⟩ := hs.opened g hg
    exact ⟨a, hdone a ha, h⟩
  · intro hg
    exact (hs.closed hg).imp id fun ⟨a, ha, h⟩ => ⟨a, hdone a ha, h⟩

theorem cut (hs : s.Tracks c bs done) (hb : Next c bs done b)
    (hvisible : visible b c.index.lineCount s.covered = some span) (hlong : c.maxLines < span.size)
    (hparts : Parts c span parts) (hordered : Ordered c ⟨span.last, none, s.closed c ++ parts⟩) :
    Tracks c bs (done ++ [b]) ⟨span.last, none, s.closed c ++ parts⟩ := by
  obtain ⟨hfirst, hlast⟩ := hb.visible_all hs hvisible
  have hsize : c.maxLines < b.size := by
    have := span.first_le_last
    simp only [Span.size, Boundary.size] at hlong ⊢
    omega
  have hmem : b ∈ done ++ [b] := by simp
  refine ⟨hordered, .inr ⟨b, hmem, ?_⟩, by simp, fun _ => .inr ⟨b, hmem, hsize, hlast.symm⟩,
    hs.fate_concat ?_ ?_⟩
  · simp [Sweep.covered, hlast]
  · intro a ha h
    obtain ⟨tail, htail⟩ : ∃ tail, (s.closed c).toList = s.chunks.toList ++ tail :=
      ⟨_, toList_closed c s⟩
    refine h.carry (tail ++ parts) (by simp [htail]) fun g hg hinside => ?_
    have hlt := covered_lt_first hvisible
    rw [hs.ordered.covered_of_some hg] at hlt
    have := hinside.2
    exact fate_of_cut hs.ordered hg hinside (by omega) hparts
  · intro hfits
    have := hfits b hb.mem ⟨Int.le_refl _, Int.le_refl _⟩
    omega

theorem opens {emitted : Nat} {chunks : Array Chunk} (hs : s.Tracks c bs done)
    (hb : Next c bs done b) (hvisible : visible b c.index.lineCount s.covered = some span)
    (hordered : Ordered c ⟨emitted, some ⟨span, b, []⟩, chunks⟩)
    (hold : ∀ a ∈ done, Fate s a → Fate ⟨emitted, some ⟨span, b, []⟩, chunks⟩ a) :
    Tracks c bs (done ++ [b]) ⟨emitted, some ⟨span, b, []⟩, chunks⟩ := by
  obtain ⟨hfirst, hlast⟩ := hb.visible_all hs hvisible
  have hmem : b ∈ done ++ [b] := by simp
  refine ⟨hordered, .inr ⟨b, hmem, ?_⟩, ?_, by simp, hs.fate_concat hold fun _ => ?_⟩
  · rw [hordered.covered_of_some rfl, hlast]
  · rintro g ⟨⟩
    exact ⟨b, hmem, hfirst.symm⟩
  · exact .gathered _ rfl ⟨Int.le_of_eq hfirst, Int.le_of_eq hlast.symm⟩

theorem joins {g : Group} (hs : s.Tracks c bs done) (hb : Next c bs done b)
    (hvisible : visible b c.index.lineCount s.covered = some span) (hgroup : s.group = some g)
    (hordered : Ordered c ⟨s.emitted, some (g.add b span.last), s.chunks⟩) :
    Tracks c bs (done ++ [b]) ⟨s.emitted, some (g.add b span.last), s.chunks⟩ := by
  obtain ⟨hfirst, hlast⟩ := hb.visible_all hs hvisible
  obtain ⟨a₀, ha₀, hfirst₀⟩ := hs.opened g hgroup
  have hlt := covered_lt_first hvisible
  rw [hs.ordered.covered_of_some hgroup] at hlt
  have hle := span.first_le_last
  have hstart : (g.add b span.last).span.first = g.span.first := rfl
  have hend : (g.add b span.last).span.last = span.last := Nat.max_eq_right (by omega)
  refine ⟨hordered, .inr ⟨b, by simp, ?_⟩, ?_, by simp, hs.fate_concat ?_ fun _ => ?_⟩
  · rw [hordered.covered_of_some rfl, hend, hlast]
  · rintro g' ⟨⟩
    exact ⟨a₀, List.mem_append_left _ ha₀, hfirst₀⟩
  · intro a ha h
    refine h.carry [] (by simp) fun g' hg hinside => ?_
    obtain rfl : g = g' := Option.some.inj (hgroup.symm.trans hg)
    have := hinside.2
    exact .gathered _ rfl ⟨hinside.1, by omega⟩
  · have := hb.before a₀ ha₀
    exact .gathered _ rfl ⟨by omega, by omega⟩

end Sweep.Tracks

theorem Move.tracks (hmove : Move c s b s') (hb : Next c bs done b) (hs : s.Tracks c bs done) :
    s'.Tracks c bs (done ++ [b]) := by
  have hordered := hmove.ordered hs.ordered
  cases hmove with
  | hidden hvisible => exact hs.hidden hb hvisible
  | cut span parts hvisible hlong hcut hparts => exact hs.cut hb hvisible hlong hparts hordered
  | opened span hvisible hshort hgroup =>
      refine hs.opens hb hvisible hordered fun a ha h => h.carry [] (by simp) fun g hg => ?_
      rw [hgroup] at hg
      cases hg
  | flushed span g hvisible hshort hgroup hfull hlong =>
      refine hs.opens hb hvisible hordered fun a ha h =>
        h.carry [g.chunk c] (by simp) fun g' hg hinside => ?_
      obtain rfl : g = g' := Option.some.inj (hgroup.symm.trans hg)
      exact .emitted (g.chunk c) (by simp) hinside
  | joined span g hvisible hshort hgroup hroom => exact hs.joins hb hvisible hgroup hordered

theorem Sweep.tracks_empty (c : Setting) (bs : List Boundary) : Sweep.Tracks c bs [] {} where
  ordered := Sweep.ordered_empty c
  covered := .inl rfl
  opened := by simp
  closed := fun _ => .inl rfl
  fate := by simp

end BoundaryChunks

end Chunkwise
