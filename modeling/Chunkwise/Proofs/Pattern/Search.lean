import Chunkwise.Proofs.Pattern

namespace Chunkwise

namespace Pattern

variable {α : Type} {p : Pattern} {test : Char → Bool} {s m e : Cursor} {t : Text}

theorem mem_run_of_mem {groups : List Text} {before : Option Char} {offset : Nat} {rest : Text}
    {passed : List Cursor} (h : e ∈ passed) : e ∈ Cursor.run test groups before offset rest passed := by
  induction rest generalizing before offset passed with
  | nil => exact List.mem_cons_of_mem _ h
  | cons c rest ih =>
    rw [Cursor.run]
    split
    · exact ih (List.mem_cons_of_mem _ h)
    · exact List.mem_cons_of_mem _ h

theorem mem_run_self (s : Cursor) (passed : List Cursor) :
    s ∈ Cursor.run test s.groups s.before s.offset s.rest passed := by
  obtain ⟨before, rest, offset, groups⟩ := s
  cases rest with
  | nil => exact List.mem_cons_self
  | cons c rest =>
    simp only [Cursor.run]
    split
    · exact mem_run_of_mem List.mem_cons_self
    · exact List.mem_cons_self

theorem mem_run_of_one (h : Passes (one test) s m) {passed : List Cursor}
    (hrun : ∀ passed, e ∈ Cursor.run test m.groups m.before m.offset m.rest passed) :
    e ∈ Cursor.run test s.groups s.before s.offset s.rest passed := by
  cases h with
  | one hrest hc =>
    rw [hrest, Cursor.run, if_pos hc]
    exact hrun _

theorem mem_run_of_passes (h : Passes (star test) s e) (passed : List Cursor) :
    e ∈ Cursor.run test s.groups s.before s.offset s.rest passed := by
  generalize hp : star test = p at h
  induction h generalizing passed with
  | none _ s =>
    cases hp
    exact mem_run_self s passed
  | more hfirst _ _ ih =>
    cases hp
    exact mem_run_of_one hfirst fun passed => ih passed rfl
  | _ => cases hp

theorem exists_passes_star {passed rest : Text} (h : ∀ c ∈ passed, test c = true)
    (hs : s.rest = passed ++ rest) : ∃ e, Passes (star test) s e ∧ e.rest = rest := by
  induction passed generalizing s with
  | nil => exact ⟨s, .none test s, hs⟩
  | cons c passed ih =>
    obtain ⟨hc, hpassed⟩ := List.forall_mem_cons.mp h
    obtain ⟨e, he, hrest⟩ := ih (s := ⟨some c, passed ++ rest, s.offset + 1, s.groups⟩) hpassed rfl
    exact ⟨e, .more (.one hs hc) he, hrest⟩

theorem isSome_run_of_passes {accept : Cursor → Option α} (h : Passes p s e)
    (haccept : (accept e).isSome = true) : (p.run accept s).isSome = true := by
  induction p generalizing accept s e with
  | empty =>
    cases h
    exact haccept
  | one test =>
    cases h with
    | one hrest hc =>
      simp only [run, hrest, if_pos hc]
      exact haccept
  | star test =>
    rw [run, List.findSome?_isSome_iff]
    exact ⟨e, mem_run_of_passes h [], haccept⟩
  | seq p q hp hq =>
    cases h with
    | seq hfirst hsecond => exact hp hfirst (hq hsecond haccept)
  | alt p q hp hq =>
    rw [run]
    cases h with
    | left hfirst =>
      obtain ⟨r, hr⟩ := Option.isSome_iff_exists.mp (hp hfirst haccept)
      rw [hr]
      rfl
    | right hsecond =>
      split
      · rfl
      · exact hq hsecond haccept
  | group p hp =>
    cases h with
    | group hinner => exact hp hinner haccept
  | wordEdge =>
    cases h with
    | wordEdge hedge =>
      rw [run, if_pos hedge]
      exact haccept
  | start =>
    cases h with
    | start hstart =>
      rw [run, if_pos hstart]
      exact haccept
  | finish =>
    cases h with
    | finish hfinish =>
      rw [run, if_pos hfinish]
      exact haccept

theorem isSome_matchAt_iff : (p.matchAt s).isSome = true ↔ ∃ e, Passes p s e := by
  constructor
  · intro h
    obtain ⟨m, hm⟩ := Option.isSome_iff_exists.mp h
    exact ⟨m.stop, (passes_of_matchAt hm).2⟩
  · rintro ⟨e, he⟩
    exact isSome_run_of_passes he rfl

theorem isSome_searchFrom_cons (p : Pattern) (before : Option Char) (offset : Nat) (c : Char) (t : Text) :
    (p.searchFrom before offset (c :: t)).isSome = true ↔
      (p.matchAt ⟨before, c :: t, offset, []⟩).isSome = true ∨
        (p.searchFrom (some c) (offset + 1) t).isSome = true := by
  rw [searchFrom]
  cases p.matchAt ⟨before, c :: t, offset, []⟩ with
  | some m => simp
  | none => simp

theorem occursIn_iff_of_ahead {ahead : Text → Prop}
    (h : ∀ s, (∃ e, Passes p s e) ↔ ahead s.rest) : p.occursIn t = true ↔ ∃ below, below <:+ t ∧ ahead below := by
  have hfrom : ∀ before offset,
      (p.searchFrom before offset t).isSome = true ↔ ∃ below, below <:+ t ∧ ahead below := by
    induction t with
    | nil =>
      intro before offset
      simp [searchFrom, isSome_matchAt_iff, h]
    | cons c t ih =>
      intro before offset
      rw [isSome_searchFrom_cons, ih, isSome_matchAt_iff, h]
      simp [List.suffix_cons_iff, or_and_right, exists_or]
  exact hfrom none 0

end Pattern

end Chunkwise
