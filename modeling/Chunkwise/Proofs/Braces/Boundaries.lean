import Chunkwise.Braces.Boundaries
import Chunkwise.Proofs.Text.Lines
import Mathlib.Algebra.Ring.Int.Defs
import Mathlib.Order.Bounds.Basic

namespace Chunkwise

namespace Braces

variable {t line : Text} {n m : Nat} {s : Scan} {o : Opened} {found : Array Boundary} {b : Boundary}

def depthAt (t : Text) (n : Nat) : Int :=
  ((t.lines.take n).map balance).sum

def Starts (t : Text) (n : Nat) : Prop :=
  ∃ line, (line, n) ∈ t.numberedLines ∧ startsDeclaration line.trim = true

def Closes (t : Text) (n : Nat) : Prop :=
  ∃ line, (line, n) ∈ t.numberedLines ∧ depthAt t n = 0 ∧ line.trim.endsIn '}' = true

theorem depthAt_succ (h : (line, n + 1) ∈ t.numberedLines) :
    depthAt t (n + 1) = depthAt t n + balance line := by
  rw [Text.mem_numberedLines_iff] at h
  simp [depthAt, List.take_add_one, h]

theorem starts_iff (h : (line, n) ∈ t.numberedLines) :
    Starts t n ↔ startsDeclaration line.trim = true := by
  constructor
  · rintro ⟨line', h', hstarts⟩
    rwa [Text.numbered_unique h h'] at hstarts
  · intro hstarts
    exact ⟨line, h, hstarts⟩

theorem closes_iff (h : (line, n) ∈ t.numberedLines) :
    Closes t n ↔ depthAt t n = 0 ∧ line.trim.endsIn '}' = true := by
  constructor
  · rintro ⟨line', h', hcloses⟩
    rwa [Text.numbered_unique h h'] at hcloses
  · intro hcloses
    exact ⟨line, h, hcloses⟩

theorem le_of_closes (h : Closes t n) : n ≤ t.lines.length := by
  obtain ⟨line, hline, -⟩ := h
  exact (Text.numbered_bounds hline).2

def Heads (t : Text) (first : Nat) (kind : Kind) (name : Option String) : Prop :=
  ∃ line, (line, first) ∈ t.numberedLines ∧ startsDeclaration line.trim = true ∧
    kind = kindOf line.trim ∧ name = nameOf line.trim

theorem Heads.bounds {first : Nat} {kind : Kind} {name : Option String}
    (h : Heads t first kind name) : 1 ≤ first ∧ first ≤ t.lines.length := by
  obtain ⟨line, hline, -⟩ := h
  exact Text.numbered_bounds hline

def FirstClosing (t : Text) (first last : Nat) : Prop :=
  IsLeast {n | first ≤ n ∧ Closes t n} last

structure ClosedBy (t : Text) (n : Nat) (b : Boundary) (first last : Nat) : Prop where
  first_eq : b.first = first
  last_eq : b.last = last
  heads : Heads t first b.kind b.name
  closing : FirstClosing t first last
  le : last ≤ n

def Held (found : Array Boundary) (n : Nat) : Prop :=
  ∃ b ∈ found, b.first ≤ n ∧ n ≤ b.last

structure Opened.Waits (t : Text) (m : Nat) (found : Array Boundary) (o : Opened) : Prop where
  heads : Heads t o.first o.kind o.name
  le : o.first ≤ m
  above : ∀ b ∈ found, b.last < o.first
  silent : ∀ n, o.first ≤ n → n < m → ¬ Closes t n

structure Scan.Reads (t : Text) (n : Nat) (s : Scan) : Prop where
  depth : s.depth = depthAt t n
  found : ∀ b ∈ s.found, ∃ first last, ClosedBy t n b first last
  pairwise : s.found.toList.Pairwise fun b c => b.last < c.first
  opened : ∀ o, s.opened = some o → o.Waits t (n + 1) s.found
  covers : ∀ i ≤ n, Starts t i → Held s.found i ∨ ∃ o, s.opened = some o ∧ o.first ≤ i

theorem Held.push {b : Boundary} (h : Held found n) : Held (found.push b) n := by
  obtain ⟨c, hc, hn⟩ := h
  exact ⟨c, Array.mem_push_of_mem b hc, hn⟩

namespace Scan

theorem reads_empty : Reads t 0 {} where
  depth := by simp [depthAt]
  found := by simp
  pairwise := by simp
  opened := by simp
  covers := by
    rintro i hi ⟨line, hline, -⟩
    have := Text.numbered_bounds hline
    omega

theorem Reads.last_le (h : s.Reads t n) (hb : b ∈ s.found) : b.last ≤ n := by
  obtain ⟨first, last, hclosed⟩ := h.found b hb
  rw [hclosed.last_eq]
  exact Int.ofNat_le.mpr hclosed.le

theorem Reads.waits (h : s.Reads t n) (hline : (line, n + 1) ∈ t.numberedLines)
    (ho : s.openedOn line.trim (n + 1) = some o) : o.Waits t (n + 1) s.found := by
  rw [openedOn] at ho
  split at ho
  · next o' hopened =>
      cases ho
      exact h.opened o hopened
  · split at ho
    · next hstarts =>
        cases ho
        constructor
        · exact ⟨line, hline, hstarts, rfl, rfl⟩
        · exact Nat.le_refl _
        · intro b hb
          have := h.last_le hb
          change b.last < (n + 1 : Nat)
          omega
        · intro i hle hlt
          exact absurd hlt (Nat.not_lt.mpr hle)
    · cases ho

theorem Reads.covers_opened (h : s.Reads t n) (hline : (line, n + 1) ∈ t.numberedLines)
    (ho : s.openedOn line.trim (n + 1) = some o) {i : Nat} (hi : i ≤ n + 1) (hstarts : Starts t i) :
    Held s.found i ∨ o.first ≤ i := by
  have hwaits := h.waits hline ho
  rcases Nat.lt_or_eq_of_le hi with hlt | rfl
  · rcases h.covers i (Nat.le_of_lt_succ hlt) hstarts with hheld | ⟨o', ho', hle⟩
    · exact .inl hheld
    · rw [openedOn, ho'] at ho
      cases ho
      exact .inr hle
  · exact .inr hwaits.le

theorem Reads.covers_none (h : s.Reads t n) (hline : (line, n + 1) ∈ t.numberedLines)
    (ho : s.openedOn line.trim (n + 1) = none) {i : Nat} (hi : i ≤ n + 1) (hstarts : Starts t i) :
    Held s.found i := by
  rw [openedOn] at ho
  split at ho
  · cases ho
  · next hopened =>
      split at ho
      · cases ho
      · next hnone =>
          rcases Nat.lt_or_eq_of_le hi with hlt | rfl
          · rcases h.covers i (Nat.le_of_lt_succ hlt) hstarts with hheld | ⟨o, ho, -⟩
            · exact hheld
            · rw [hopened] at ho
              cases ho
          · exact absurd ((starts_iff hline).mp hstarts) hnone

theorem Reads.step (h : s.Reads t n) (hline : (line, n + 1) ∈ t.numberedLines) :
    (s.step (line, n + 1)).Reads t (n + 1) := by
  have hdepth : s.depth + balance line = depthAt t (n + 1) := by rw [h.depth, depthAt_succ hline]
  have hfound : ∀ b ∈ s.found, ∃ first last, ClosedBy t (n + 1) b first last := by
    intro b hb
    obtain ⟨first, last, hclosed⟩ := h.found b hb
    exact ⟨first, last, { hclosed with le := Nat.le_succ_of_le hclosed.le }⟩
  rw [Scan.step]
  split
  · next hnone =>
      constructor
      · exact hdepth
      · exact hfound
      · exact h.pairwise
      · simp
      · intro i hi hstarts
        exact .inl (h.covers_none hline hnone hi hstarts)
  · next o ho =>
      have hwaits := h.waits hline ho
      split
      · next hclose =>
          have hcloses : Closes t (n + 1) := by
            rw [closes_iff hline, ← hdepth]
            simpa using hclose
          have hclosed : ClosedBy t (n + 1) (o.close (n + 1)) o.first (n + 1) := by
            refine ⟨rfl, rfl, hwaits.heads, ⟨⟨hwaits.le, hcloses⟩, ?_⟩, Nat.le_refl _⟩
            rintro i ⟨hle, hi⟩
            exact Nat.not_lt.mp fun hlt => hwaits.silent i hle hlt hi
          constructor
          · exact hdepth
          · intro b hb
            rcases Array.mem_push.mp hb with hb | rfl
            · exact hfound b hb
            · exact ⟨_, _, hclosed⟩
          · rw [Array.toList_push]
            refine List.pairwise_append.mpr ⟨h.pairwise, List.pairwise_singleton _ _, ?_⟩
            intro b hb c hc
            obtain rfl := List.mem_singleton.mp hc
            exact hwaits.above b (Array.mem_toList_iff.mp hb)
          · simp
          · intro i hi hstarts
            rcases h.covers_opened hline ho hi hstarts with hheld | hle
            · exact .inl hheld.push
            · exact .inl ⟨_, Array.mem_push_self, Int.ofNat_le.mpr hle, Int.ofNat_le.mpr hi⟩
      · next hopen =>
          have hopens : ¬ Closes t (n + 1) := by
            rw [closes_iff hline, ← hdepth]
            simpa using hopen
          constructor
          · exact hdepth
          · exact hfound
          · exact h.pairwise
          · rintro _ ⟨⟩
            refine { hwaits with le := Nat.le_succ_of_le hwaits.le, silent := ?_ }
            intro i hle hlt
            rcases Nat.lt_or_eq_of_le (Nat.le_of_lt_succ hlt) with hlt | rfl
            · exact hwaits.silent i hle hlt
            · exact hopens
          · intro i hi hstarts
            rcases h.covers_opened hline ho hi hstarts with hheld | hle
            · exact .inl hheld
            · exact .inr ⟨o, rfl, hle⟩

end Scan

theorem reads_scan (t : Text) : (scan t).Reads t t.lines.length :=
  Text.foldl_numberedLines_keeps (Scan.Reads t) t Scan.reads_empty
    fun _ _ _ hline h => h.step hline

def Ends (t : Text) (first last : Nat) : Prop :=
  FirstClosing t first last ∨ last = t.lines.length ∧ ∀ n, first ≤ n → ¬ Closes t n

structure Bounds (t : Text) (b : Boundary) (first last : Nat) : Prop where
  first_eq : b.first = first
  last_eq : b.last = last
  heads : Heads t first b.kind b.name
  one_le_first : 1 ≤ first
  first_le_last : first ≤ last
  last_le : last ≤ t.lines.length
  ends : Ends t first last

theorem ClosedBy.bounds {first last : Nat} (h : ClosedBy t t.lines.length b first last) :
    Bounds t b first last where
  first_eq := h.first_eq
  last_eq := h.last_eq
  heads := h.heads
  one_le_first := h.heads.bounds.1
  first_le_last := h.closing.1.1
  last_le := h.le
  ends := .inl h.closing

theorem Opened.Waits.bounds (h : o.Waits t (t.lines.length + 1) found) :
    Bounds t (o.close t.lines.length) o.first t.lines.length where
  first_eq := rfl
  last_eq := rfl
  heads := h.heads
  one_le_first := h.heads.bounds.1
  first_le_last := h.heads.bounds.2
  last_le := Nat.le_refl _
  ends := by
    refine .inr ⟨rfl, ?_⟩
    intro n hle hcloses
    exact h.silent n hle (Nat.lt_succ_of_le (le_of_closes hcloses)) hcloses

theorem exists_bounds (h : b ∈ boundaries t) : ∃ first last, Bounds t b first last := by
  have hscan := reads_scan t
  have hdone : ∀ b ∈ (scan t).found, ∃ first last, Bounds t b first last := by
    intro b hb
    obtain ⟨first, last, hclosed⟩ := hscan.found b hb
    exact ⟨first, last, hclosed.bounds⟩
  rw [boundaries, Scan.finish] at h
  split at h
  · exact hdone b (Array.mem_toList_iff.mp h)
  · next o ho =>
      rcases Array.mem_push.mp (Array.mem_toList_iff.mp h) with hb | rfl
      · exact hdone b hb
      · exact ⟨_, _, (hscan.opened o ho).bounds⟩

theorem pairwise_boundaries (t : Text) : (boundaries t).Pairwise fun b c => b.last < c.first := by
  have hscan := reads_scan t
  rw [boundaries, Scan.finish]
  split
  · exact hscan.pairwise
  · next o ho =>
      rw [Array.toList_push]
      refine List.pairwise_append.mpr ⟨hscan.pairwise, List.pairwise_singleton _ _, ?_⟩
      intro b hb c hc
      obtain rfl := List.mem_singleton.mp hc
      exact (hscan.opened o ho).above b (Array.mem_toList_iff.mp hb)

theorem exists_boundary_of_starts (h : Starts t n) : ∃ b ∈ boundaries t, b.first ≤ n ∧ n ≤ b.last := by
  have ⟨line, hline, _⟩ := h
  have hn := (Text.numbered_bounds hline).2
  rw [boundaries, Scan.finish]
  rcases (reads_scan t).covers n hn h with ⟨b, hb, hheld⟩ | ⟨o, ho, hle⟩
  · split
    · exact ⟨b, Array.mem_toList_iff.mpr hb, hheld⟩
    · exact ⟨b, Array.mem_toList_iff.mpr (Array.mem_push_of_mem _ hb), hheld⟩
  · simp only [ho]
    exact ⟨_, Array.mem_toList_iff.mpr Array.mem_push_self, Int.ofNat_le.mpr hle, Int.ofNat_le.mpr hn⟩

theorem eq_nil_of_not_closed {above below : List Boundary} (h : boundaries t = above ++ b :: below)
    (hopen : ∀ n : Nat, b.first ≤ n → ¬ Closes t n) : below = [] := by
  cases below with
  | nil => rfl
  | cons c below =>
      obtain ⟨first, last, hb⟩ := exists_bounds (t := t) (b := b) (by simp [h])
      obtain ⟨first', last', hc⟩ := exists_bounds (t := t) (b := c) (by simp [h])
      have hpair := pairwise_boundaries t
      rw [h, List.pairwise_append, List.pairwise_cons] at hpair
      have hbc := hpair.2.1.1 c List.mem_cons_self
      rw [hb.last_eq, hc.first_eq] at hbc
      have hfirst' := hc.heads.bounds.2
      rcases hb.ends with hclosing | ⟨hend, -⟩
      · have hle := hclosing.1.1
        rw [hb.first_eq] at hopen
        exact absurd hclosing.1.2 (hopen last (Int.ofNat_le.mpr hle))
      · omega

theorem boundaries_characterised (t : Text) :
    (∀ b ∈ boundaries t, ∃ first last, Bounds t b first last) ∧
      ((boundaries t).Pairwise fun b c => b.last < c.first) ∧
      (∀ n, Starts t n → ∃ b ∈ boundaries t, b.first ≤ n ∧ n ≤ b.last) ∧
      ∀ (above : List Boundary) (b : Boundary) (below : List Boundary), boundaries t = above ++ b :: below →
        (∀ n : Nat, b.first ≤ (n : Int) → ¬ Closes t n) → below = [] := by
  refine ⟨?_, pairwise_boundaries t, ?_, ?_⟩
  · intro b hb
    exact exists_bounds hb
  · intro n hstarts
    exact exists_boundary_of_starts hstarts
  · intro above b below h hopen
    exact eq_nil_of_not_closed h hopen

end Braces

end Chunkwise
