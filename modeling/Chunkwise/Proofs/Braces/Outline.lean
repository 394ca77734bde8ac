import Chunkwise.Braces.Outline
import Chunkwise.Proofs.Braces.Boundaries

namespace Chunkwise

namespace Braces

variable {t line : Text} {n m k i : Nat} {start depth : Int} {s s' s'' : OutlineScan} {b : Block} {w : Waiting}

def Returns (l : Text) (start depth : Int) : Prop :=
  ∃ i, l[i]? = some '}' ∧ start + balance (l.take (i + 1)) = depth

def ClosesBlock (t : Text) (first n : Nat) : Prop :=
  ∃ line, (line, n) ∈ t.numberedLines ∧ Returns line (depthAt t (n - 1)) (depthAt t (first - 1))

def FirstReturn (t : Text) (first last : Nat) : Prop :=
  IsLeast {n | first ≤ n ∧ ClosesBlock t first n} last

structure BlockBounds (t : Text) (first last : Nat) : Prop where
  first_le_last : first ≤ last
  last_le : last ≤ t.lines.length
  ends : FirstReturn t first last ∨ last = t.lines.length ∧ ∀ n, first ≤ n → ¬ ClosesBlock t first n

theorem balance_cons (c : Char) (line : Text) : balance (c :: line) = balance [c] + balance line := by
  simp only [balance, List.count_cons, List.count_nil]
  omega

theorem returns_nil : ¬ Returns [] start depth := by
  rintro ⟨i, hi, -⟩
  cases hi

theorem returns_cons {c : Char} : Returns (c :: line) start depth ↔
    c = '}' ∧ start + balance [c] = depth ∨ Returns line (start + balance [c]) depth := by
  constructor
  · rintro ⟨i, hi, hdepth⟩
    cases i with
    | zero => exact .inl ⟨Option.some.inj hi, hdepth⟩
    | succ i =>
      rw [List.take_succ_cons, balance_cons, ← Int.add_assoc] at hdepth
      exact .inr ⟨i, hi, hdepth⟩
  · rintro (⟨rfl, hdepth⟩ | ⟨i, hi, hdepth⟩)
    · exact ⟨0, rfl, hdepth⟩
    · refine ⟨i + 1, hi, ?_⟩
      rw [List.take_succ_cons, balance_cons, ← Int.add_assoc]
      exact hdepth

theorem returns_singleton {c : Char} : Returns [c] start depth ↔ c = '}' ∧ start + balance [c] = depth := by
  rw [returns_cons, or_iff_left returns_nil]

theorem closesBlock_iff {first : Nat} (h : (line, n + 1) ∈ t.numberedLines) :
    ClosesBlock t first (n + 1) ↔ Returns line (depthAt t n) (depthAt t (first - 1)) := by
  constructor
  · rintro ⟨line', h', hreturns⟩
    rwa [Text.numbered_unique h h'] at hreturns
  · intro hreturns
    exact ⟨line, h, hreturns⟩

theorem le_of_closesBlock {first : Nat} (h : ClosesBlock t first n) : n ≤ t.lines.length := by
  obtain ⟨line, hline, -⟩ := h
  exact (Text.numbered_bounds hline).2

def Block.endOn (b : Block) (last : Nat) : Block :=
  { b with last }

namespace OutlineScan

theorem map_endOn_map_endOn (block : Option Block) (number : Nat) :
    (block.map (·.endOn number)).map (·.endOn number) = block.map (·.endOn number) := by
  rw [Option.map_map]
  rfl

theorem getElem?_endAt (number : Nat) (blocks : Array Block) (w : Waiting) (i : Nat) :
    (endAt number blocks w)[i]? = if w.index = i then blocks[i]?.map (·.endOn number) else blocks[i]? :=
  Array.getElem?_modify

theorem getElem?_foldl_endAt (number : Nat) (ws : List Waiting) (blocks : Array Block) (i : Nat) :
    (ws.foldl (endAt number) blocks)[i]? =
      if ∃ w ∈ ws, w.index = i then blocks[i]?.map (·.endOn number) else blocks[i]? := by
  induction ws generalizing blocks with
  | nil => simp
  | cons w ws ih =>
    rw [List.foldl_cons, ih, getElem?_endAt]
    simp only [List.exists_mem_cons_iff]
    by_cases hw : w.index = i
    · simp only [hw, if_true, true_or, map_endOn_map_endOn, ite_self]
    · simp only [hw, if_false, false_or]

structure Passes (line : Text) (number : Nat) (s s' : OutlineScan) : Prop where
  depth : s'.depth = s.depth + balance line
  waiting : ∀ w, w ∈ s'.waiting ↔ w ∈ s.waiting ∧ ¬ Returns line s.depth w.depth
  ended : ∀ w ∈ s.waiting, Returns line s.depth w.depth →
    s'.blocks[w.index]? = s.blocks[w.index]?.map (·.endOn number)
  kept : ∀ i, (∀ w ∈ s.waiting, w.index = i → ¬ Returns line s.depth w.depth) → s'.blocks[i]? = s.blocks[i]?

theorem passes_of_unchanged {number : Nat} (hdepth : s'.depth = s.depth + balance line)
    (hwaiting : s'.waiting = s.waiting) (hblocks : s'.blocks = s.blocks)
    (hreturns : ∀ depth, ¬ Returns line s.depth depth) : Passes line number s s' where
  depth := hdepth
  waiting w := by rw [hwaiting, and_iff_left (hreturns w.depth)]
  ended w _ h := absurd h (hreturns w.depth)
  kept i _ := by rw [hblocks]

theorem passes_closing (number : Nat) (s : OutlineScan) : Passes ['}'] number s (s.character number '}') := by
  have hreturns (w : Waiting) : Returns ['}'] s.depth w.depth ↔ w.depth = s.depth - 1 := by
    rw [returns_singleton, and_iff_right rfl]
    exact eq_comm
  have hcharacter : s.character number '}' = { s with
      depth := s.depth - 1
      waiting := s.waiting.filter fun w => !w.depth == s.depth - 1
      blocks := (s.waiting.filter (·.depth == s.depth - 1)).foldl (endAt number) s.blocks } := by
    simp [character, List.partition_eq_filter_filter, Function.comp_def]
  rw [hcharacter]
  constructor
  · rfl
  · intro w
    simp [hreturns]
  · intro w hw h
    have hended : (w.depth == s.depth - 1) = true := beq_iff_eq.mpr ((hreturns w).mp h)
    exact (getElem?_foldl_endAt ..).trans (if_pos ⟨w, List.mem_filter.mpr ⟨hw, hended⟩, rfl⟩)
  · intro i h
    refine (getElem?_foldl_endAt ..).trans (if_neg ?_)
    rintro ⟨w, hw, hi⟩
    obtain ⟨hw, hdepth⟩ := List.mem_filter.mp hw
    exact h w hw hi ((hreturns w).mpr (beq_iff_eq.mp hdepth))

theorem passes_character (number : Nat) (s : OutlineScan) (c : Char) :
    Passes [c] number s (s.character number c) := by
  by_cases hc : c = '}'
  · rw [hc]
    exact passes_closing number s
  · have hcharacter : s.character number c = { s with depth := s.depth + balance [c] } := by
      rw [character]
      split
      · rename_i hopen
        rw [hopen]
        rfl
      · rename_i hopen
        simp [balance, hc, hopen]
    rw [hcharacter]
    exact passes_of_unchanged rfl rfl rfl fun depth h => hc (returns_singleton.mp h).1

theorem Passes.blocks {number : Nat} (h : Passes line number s s') (i : Nat) :
    s'.blocks[i]? = s.blocks[i]? ∨ s'.blocks[i]? = s.blocks[i]?.map (·.endOn number) := by
  by_cases hended : ∃ w ∈ s.waiting, w.index = i ∧ Returns line s.depth w.depth
  · obtain ⟨w, hw, rfl, hreturns⟩ := hended
    exact .inr (h.ended w hw hreturns)
  · exact .inl (h.kept i fun w hw hi hreturns => hended ⟨w, hw, hi, hreturns⟩)

theorem Passes.cons {c : Char} {number : Nat} (hc : Passes [c] number s s') (hl : Passes line number s' s'') :
    Passes (c :: line) number s s'' := by
  have hreturns (depth : Int) : Returns (c :: line) s.depth depth ↔
      Returns [c] s.depth depth ∨ Returns line s'.depth depth := by
    rw [returns_cons, returns_singleton, hc.depth]
  constructor
  · rw [hl.depth, hc.depth, balance_cons c line, Int.add_assoc]
  · intro w
    rw [hl.waiting, hc.waiting, hreturns, not_or, and_assoc]
  · intro w hw h
    by_cases hfirst : Returns [c] s.depth w.depth
    · have hended := hc.ended w hw hfirst
      rcases hl.blocks w.index with hkept | hagain
      · rw [hkept, hended]
      · rw [hagain, hended, map_endOn_map_endOn]
    · have hended := hl.ended w ((hc.waiting w).mpr ⟨hw, hfirst⟩) (((hreturns _).mp h).resolve_left hfirst)
      rcases hc.blocks w.index with hkept | hbefore
      · rw [hended, hkept]
      · rw [hended, hbefore, map_endOn_map_endOn]
  · intro i h
    rw [hl.kept, hc.kept]
    · intro w hw hi hr
      exact h w hw hi ((hreturns _).mpr (.inl hr))
    · intro w hw hi hr
      exact h w ((hc.waiting w).mp hw).1 hi ((hreturns _).mpr (.inr hr))

theorem passes_line (line : Text) (number : Nat) (s : OutlineScan) :
    Passes line number s (line.foldl (character number) s) := by
  induction line generalizing s with
  | nil => exact passes_of_unchanged (Int.add_zero s.depth).symm rfl rfl fun _ => returns_nil
  | cons c line ih => exact (passes_character number s c).cons (ih (s.character number c))

structure WaitsFor (t : Text) (n : Nat) (b : Block) (depth : Int) : Prop where
  depth : depth = depthAt t (b.first - 1)
  first_le : b.first ≤ n + 1
  silent : ∀ m ≤ n, b.first ≤ m → ¬ ClosesBlock t b.first m

structure Reads (t : Text) (n : Nat) (s : OutlineScan) : Prop where
  depth : s.depth = depthAt t n
  waiting : ∀ w ∈ s.waiting, ∃ b, s.blocks[w.index]? = some b ∧ WaitsFor t n b w.depth
  closed : ∀ i b, s.blocks[i]? = some b → (∀ w ∈ s.waiting, w.index ≠ i) → FirstReturn t b.first b.last ∧ b.last ≤ n

theorem reads_empty : Reads t 0 {} where
  depth := by simp [depthAt]
  waiting := by simp
  closed := by simp

theorem Reads.openBlock (h : s.Reads t n) (kind : BlockKind) (header : Pattern) (line : Text) :
    (s.openBlock kind header line (n + 1)).Reads t n := by
  rw [OutlineScan.openBlock]
  split
  · exact h
  · rename_i m hm
    constructor
    · exact h.depth
    · intro w hw
      rcases List.mem_cons.mp hw with rfl | hw
      · refine ⟨_, Array.getElem?_push_size, h.depth, Nat.le_refl _, ?_⟩
        intro m hm hfirst
        exact absurd (Nat.le_trans hfirst hm) (Nat.not_succ_le_self n)
      · obtain ⟨b, hb, hwaits⟩ := h.waiting w hw
        refine ⟨b, ?_, hwaits⟩
        rw [Array.getElem?_push, if_neg (Nat.ne_of_lt (Array.getElem?_eq_some_iff.mp hb).1), hb]
    · intro i b hb hnone
      rw [Array.getElem?_push, if_neg (hnone _ List.mem_cons_self).symm] at hb
      exact h.closed i b hb fun w hw => hnone w (List.mem_cons_of_mem _ hw)

theorem Reads.header (h : s.Reads t n) (line : Text) : (s.header line (n + 1)).Reads t n := by
  have hblocks := (h.openBlock .function functionHeader line).openBlock .classLike classHeader line
  exact ⟨hblocks.depth, hblocks.waiting, hblocks.closed⟩

theorem Reads.depth_eq (h : s.Reads t n) (hb : s.blocks[w.index]? = some b) (hw : w ∈ s.waiting) :
    w.depth = depthAt t (b.first - 1) := by
  obtain ⟨b', hb', hwaits⟩ := h.waiting w hw
  obtain rfl : b = b' := Option.some.inj (hb.symm.trans hb')
  exact hwaits.depth

theorem Reads.passes (h : s.Reads t n) (hline : (line, n + 1) ∈ t.numberedLines)
    (hpasses : Passes line (n + 1) s s') : s'.Reads t (n + 1) := by
  have hreturns {w : Waiting} {b : Block} (hw : w ∈ s.waiting) (hb : s.blocks[w.index]? = some b) :
      Returns line s.depth w.depth ↔ ClosesBlock t b.first (n + 1) := by
    rw [closesBlock_iff hline, h.depth, h.depth_eq hb hw]
  constructor
  · rw [hpasses.depth, h.depth, depthAt_succ hline]
  · intro w hw
    obtain ⟨hw, hopen⟩ := (hpasses.waiting w).mp hw
    obtain ⟨b, hb, hwaits⟩ := h.waiting w hw
    rw [hreturns hw hb] at hopen
    refine ⟨b, ?_, hwaits.depth, Nat.le_succ_of_le hwaits.first_le, ?_⟩
    · rw [hpasses.kept w.index, hb]
      intro v hv hindex hclose
      rw [hreturns hv (hindex ▸ hb)] at hclose
      exact hopen hclose
    · intro m hm hfirst
      rcases Nat.lt_or_eq_of_le hm with hm | rfl
      · exact hwaits.silent m (Nat.le_of_lt_succ hm) hfirst
      · exact hopen
  · intro i b hb hnone
    by_cases hbefore : ∃ w ∈ s.waiting, w.index = i
    · obtain ⟨w, hw, rfl⟩ := hbefore
      obtain ⟨b', hb', hwaits⟩ := h.waiting w hw
      have hclose : Returns line s.depth w.depth := by
        by_contra hopen
        exact hnone w ((hpasses.waiting w).mpr ⟨hw, hopen⟩) rfl
      rw [hpasses.ended w hw hclose, hb'] at hb
      cases hb
      rw [hreturns hw hb'] at hclose
      refine ⟨⟨⟨hwaits.first_le, hclose⟩, ?_⟩, Nat.le_refl _⟩
      rintro m ⟨hfirst, hm⟩
      exact Nat.not_lt.mp fun hlt => hwaits.silent m (Nat.le_of_lt_succ hlt) hfirst hm
    · have hnone : ∀ w ∈ s.waiting, w.index ≠ i := fun w hw hi => hbefore ⟨w, hw, hi⟩
      rw [hpasses.kept i fun w hw hi => absurd hi (hnone w hw)] at hb
      obtain ⟨hfirst, hle⟩ := h.closed i b hb hnone
      exact ⟨hfirst, Nat.le_succ_of_le hle⟩

theorem Reads.step (h : s.Reads t n) (hline : (line, n + 1) ∈ t.numberedLines) :
    (s.step (line, n + 1)).Reads t (n + 1) :=
  (h.header line.trim).passes hline (passes_line line (n + 1) _)

end OutlineScan

theorem reads_outlineScan (t : Text) : (outlineScan t).Reads t t.lines.length :=
  Text.foldl_numberedLines_keeps (OutlineScan.Reads t) t OutlineScan.reads_empty
    fun _ _ _ hline h => h.step hline

def Block.heading (b : Block) : Block :=
  b.endOn b.first

def headed (kind : BlockKind) (header : Pattern) (numbered : Text × Nat) : Option Block :=
  (header.search numbered.1.trim).map fun m =>
    ⟨kind, String.ofList m.firstGroup, numbered.1.trim, numbered.2, numbered.2⟩

def headings (numbered : Text × Nat) : List Block :=
  (headed .function functionHeader numbered).toList ++ (headed .classLike classHeader numbered).toList

theorem first_of_mem_headings {numbered : Text × Nat} (h : b ∈ headings numbered) : b.first = numbered.2 := by
  have hfirst {kind : BlockKind} {header : Pattern} (hb : b ∈ headed kind header numbered) :
      b.first = numbered.2 := by
    obtain ⟨m, -, rfl⟩ := Option.map_eq_some_iff.mp hb
    rfl
  rcases List.mem_append.mp h with h | h
  · exact hfirst (Option.mem_toList.mp h)
  · exact hfirst (Option.mem_toList.mp h)

namespace OutlineScan

def found (s : OutlineScan) : List Block :=
  (s.blocks.map Block.heading).toList

theorem found_openBlock (s : OutlineScan) (kind : BlockKind) (header : Pattern) (line : Text) (number : Nat) :
    (s.openBlock kind header line.trim number).found =
      s.found ++ (headed kind header (line, number)).toList := by
  rw [openBlock, headed]
  cases header.search line.trim with
  | none => exact (List.append_nil s.found).symm
  | some m =>
    simp only [found, Array.map_push, Array.toList_push]
    rfl

theorem map_heading_foldl_endAt (number : Nat) (ws : List Waiting) (blocks : Array Block) :
    (ws.foldl (endAt number) blocks).map Block.heading = blocks.map Block.heading := by
  apply Array.ext_getElem?
  intro i
  rw [Array.getElem?_map, getElem?_foldl_endAt, Array.getElem?_map]
  split
  · rw [Option.map_map]
    rfl
  · rfl

theorem found_character (number : Nat) (s : OutlineScan) (c : Char) : (s.character number c).found = s.found := by
  rw [character]
  split
  · rfl
  · split
    · exact congrArg Array.toList (map_heading_foldl_endAt number _ s.blocks)
    · rfl

theorem found_line (number : Nat) (s : OutlineScan) (line : Text) :
    (line.foldl (character number) s).found = s.found := by
  induction line generalizing s with
  | nil => rfl
  | cons c line ih => rw [List.foldl_cons, ih, found_character]

theorem found_step (s : OutlineScan) (numbered : Text × Nat) :
    (s.step numbered).found = s.found ++ headings numbered := by
  rw [step, found_line]
  change ((s.openBlock .function functionHeader numbered.1.trim numbered.2).openBlock .classLike classHeader
    numbered.1.trim numbered.2).found = _
  rw [found_openBlock, found_openBlock, List.append_assoc]
  rfl

theorem found_foldl (s : OutlineScan) (numbered : List (Text × Nat)) :
    (numbered.foldl step s).found = s.found ++ numbered.flatMap headings := by
  induction numbered generalizing s with
  | nil => exact (List.append_nil s.found).symm
  | cons x xs ih => rw [List.foldl_cons, ih, found_step, List.flatMap_cons, List.append_assoc]

end OutlineScan

def blocks (t : Text) : List Block :=
  ((outlineScan t).waiting.foldl (OutlineScan.endAt t.lines.length) (outlineScan t).blocks).toList

theorem map_heading_blocks (t : Text) : (blocks t).map Block.heading = t.numberedLines.flatMap headings := by
  rw [blocks, ← Array.toList_map, OutlineScan.map_heading_foldl_endAt]
  exact (OutlineScan.found_foldl {} t.numberedLines).trans (by simp [OutlineScan.found])

theorem first_le_of_mem_blocks (h : b ∈ blocks t) : b.first ≤ t.lines.length := by
  have hheading : b.heading ∈ t.numberedLines.flatMap headings := by
    rw [← map_heading_blocks]
    exact List.mem_map_of_mem h
  obtain ⟨numbered, hnumbered, hmem⟩ := List.mem_flatMap.mp hheading
  have hfirst : b.heading.first = numbered.2 := first_of_mem_headings hmem
  change b.heading.first ≤ t.lines.length
  rw [hfirst]
  exact (Text.numbered_bounds hnumbered).2

theorem bounds_of_mem_blocks (h : b ∈ blocks t) : BlockBounds t b.first b.last := by
  have hreads := reads_outlineScan t
  have hle := first_le_of_mem_blocks h
  obtain ⟨i, hi⟩ := List.mem_iff_getElem?.mp h
  rw [blocks, Array.getElem?_toList, OutlineScan.getElem?_foldl_endAt] at hi
  split at hi
  · rename_i hwaiting
    obtain ⟨w, hw, rfl⟩ := hwaiting
    obtain ⟨b', hb', hwaits⟩ := hreads.waiting w hw
    rw [hb'] at hi
    cases hi
    refine ⟨hle, Nat.le_refl _, .inr ⟨rfl, ?_⟩⟩
    intro n hfirst hclose
    exact hwaits.silent n (le_of_closesBlock hclose) hfirst hclose
  · rename_i hnone
    obtain ⟨hfirst, hlast⟩ := hreads.closed i b hi fun w hw heq => hnone ⟨w, hw, heq⟩
    exact ⟨hfirst.1.1, hlast, .inl hfirst⟩

theorem filter_headed (kind kind' : BlockKind) (header : Pattern) (numbered : Text × Nat) :
    (headed kind' header numbered).toList.filter (·.kind = kind) =
      if kind' = kind then (headed kind' header numbered).toList else [] := by
  rw [headed]
  cases header.search numbered.1.trim with
  | none => exact (ite_self _).symm
  | some m => simp [List.filter_cons]

theorem filter_headings_function (numbered : Text × Nat) :
    (headings numbered).filter (·.kind = .function) = (headed .function functionHeader numbered).toList := by
  rw [headings, List.filter_append, filter_headed, filter_headed, if_pos rfl, if_neg nofun, List.append_nil]

theorem filter_headings_class (numbered : Text × Nat) :
    (headings numbered).filter (·.kind = .classLike) = (headed .classLike classHeader numbered).toList := by
  rw [headings, List.filter_append, filter_headed, filter_headed, if_neg nofun, if_pos rfl, List.nil_append]

theorem map_heading_filter_blocks {kind : BlockKind} {header : Pattern}
    (h : ∀ numbered, (headings numbered).filter (·.kind = kind) = (headed kind header numbered).toList)
    (t : Text) : ((blocks t).filter (·.kind = kind)).map Block.heading =
      t.numberedLines.filterMap (headed kind header) := by
  have hkind : ((blocks t).filter (·.kind = kind)).map Block.heading =
      ((blocks t).map Block.heading).filter (·.kind = kind) := by
    rw [List.filter_map]
    rfl
  rw [hkind, map_heading_blocks, List.filter_flatMap, List.filterMap_eq_flatMap_toList]
  congr 1
  funext numbered
  exact h numbered

theorem outline_blocks_end (t : Text) :
    (∀ f ∈ (outline t).functions, BlockBounds t f.first f.last) ∧
    (∀ c ∈ (outline t).classes, BlockBounds t c.first c.last) ∧
    (outline t).functions.map (fun f => (f.name, f.signature, f.first)) =
      t.numberedLines.filterMap (fun numbered => (functionHeader.search numbered.1.trim).map fun m =>
        (String.ofList m.firstGroup, numbered.1.trim, numbered.2)) ∧
    (outline t).classes.map (fun c => (c.name, c.first)) =
      t.numberedLines.filterMap (fun numbered => (classHeader.search numbered.1.trim).map fun m =>
        (String.ofList m.firstGroup, numbered.2)) := by
  have hfunctions : (outline t).functions = ((blocks t).filter (·.kind = .function)).map
      fun b => ⟨b.name, b.first, b.last, b.signature⟩ := rfl
  have hclasses : (outline t).classes = ((blocks t).filter (·.kind = .classLike)).map
      fun b => ⟨b.name, b.first, b.last⟩ := rfl
  refine ⟨?_, ?_, ?_, ?_⟩
  · intro f hf
    rw [hfunctions] at hf
    obtain ⟨b, hb, rfl⟩ := List.mem_map.mp hf
    exact bounds_of_mem_blocks (List.mem_filter.mp hb).1
  · intro c hc
    rw [hclasses] at hc
    obtain ⟨b, hb, rfl⟩ := List.mem_map.mp hc
    exact bounds_of_mem_blocks (List.mem_filter.mp hb).1
  · have h := congrArg (List.map fun b => (b.name, b.signature, b.first))
      (map_heading_filter_blocks filter_headings_function t)
    rw [List.map_map, List.map_filterMap] at h
    rw [hfunctions, List.map_map]
    exact h.trans (by simp only [headed, Option.map_map]; rfl)
  · have h := congrArg (List.map fun b => (b.name, b.first))
      (map_heading_filter_blocks filter_headings_class t)
    rw [List.map_map, List.map_filterMap] at h
    rw [hclasses, List.map_map]
    exact h.trans (by simp only [headed, Option.map_map]; rfl)

example : outline "class A \x7b function f() \x7b \x7d\n\x7d".toList =
    { functions := [⟨"f", 1, 2, "class A \x7b function f() \x7b \x7d".toList⟩], classes := [⟨"A", 1, 2⟩] } := by
  decide

end Braces

end Chunkwise
