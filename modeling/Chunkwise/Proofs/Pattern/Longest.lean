import Chunkwise.Pattern.Basic
import Mathlib.Data.List.Basic

namespace Chunkwise

def Cursor.past (s : Cursor) (passed : Text) : Cursor :=
  ⟨passed.getLast?.or s.before, s.rest.drop passed.length, s.offset + passed.length, s.groups⟩

namespace Cursor

variable {s e : Cursor} {passed : Text} {test : Char → Bool}

theorem past_cons (c : Char) (rest : Text) (before : Option Char) (offset : Nat) (groups : List Text)
    (passed : Text) :
    past ⟨before, c :: rest, offset, groups⟩ (c :: passed) =
      past ⟨some c, rest, offset + 1, groups⟩ passed := by
  have hlast : (c :: passed).getLast?.or before = passed.getLast?.or (some c) := by
    rw [List.getLast?_cons]
    cases passed.getLast? with
    | none => rfl
    | some d => rfl
  simp only [past, hlast, List.length_cons, List.drop_succ_cons, Nat.add_assoc, Nat.add_comm 1]

theorem rest_past_takeWhile (s : Cursor) (test : Char → Bool) :
    (s.past (s.rest.takeWhile test)).rest = s.rest.dropWhile test := by
  calc
    s.rest.drop (s.rest.takeWhile test).length
      = (s.rest.takeWhile test ++ s.rest.dropWhile test).drop (s.rest.takeWhile test).length := by
        rw [List.takeWhile_append_dropWhile]
    _ = s.rest.dropWhile test := List.drop_left

theorem groups_close_past (h : passed <+: s.rest) :
    (close s (s.past passed)).groups = passed :: s.groups := by
  simp only [close, past, Nat.add_sub_cancel_left, ← List.prefix_iff_eq_take.mp h]

theorem run_eq_cons (test : Char → Bool) (groups : List Text) (before : Option Char) (offset : Nat)
    (rest : Text) (found : List Cursor) :
    ∃ shorter, run test groups before offset rest found =
        past ⟨before, rest, offset, groups⟩ (rest.takeWhile test) :: (shorter ++ found) ∧
      ∀ e ∈ shorter, ∃ c r, e.rest = c :: r ∧ test c = true := by
  induction rest generalizing before offset found with
  | nil => exact ⟨[], rfl, List.forall_mem_nil _⟩
  | cons c rest ih =>
      rw [run]
      split
      · next hc =>
          obtain ⟨shorter, hrun, hshorter⟩ :=
            ih (some c) (offset + 1) (⟨before, c :: rest, offset, groups⟩ :: found)
          refine ⟨shorter ++ [⟨before, c :: rest, offset, groups⟩], ?_, ?_⟩
          · rw [List.takeWhile_cons_of_pos hc, past_cons, List.append_assoc]
            exact hrun
          · rw [List.forall_mem_append, List.forall_mem_singleton]
            exact ⟨hshorter, c, rest, rfl, hc⟩
      · next hc =>
          rw [List.takeWhile_cons_of_neg hc]
          exact ⟨[], rfl, List.forall_mem_nil _⟩

end Cursor

namespace Pattern

variable {α : Type} {accept : Cursor → Option α} {s : Cursor} {test : Char → Bool} {r : α}

theorem run_star_of_some (h : accept (s.past (s.rest.takeWhile test)) = some r) :
    (star test).run accept s = some r := by
  obtain ⟨shorter, hrun, -⟩ := Cursor.run_eq_cons test s.groups s.before s.offset s.rest []
  change (Cursor.run test s.groups s.before s.offset s.rest []).findSome? accept = _
  rw [hrun, List.findSome?_cons_of_isSome]
  · exact h
  · exact Option.isSome_of_eq_some h

theorem run_star_of_blocked
    (h : ∀ e : Cursor, (∃ c r, e.rest = c :: r ∧ test c = true) → accept e = none) :
    (star test).run accept s = accept (s.past (s.rest.takeWhile test)) := by
  obtain ⟨shorter, hrun, hshorter⟩ := Cursor.run_eq_cons test s.groups s.before s.offset s.rest []
  change (Cursor.run test s.groups s.before s.offset s.rest []).findSome? accept = _
  rw [hrun, List.findSome?_cons, List.append_nil]
  cases accept (s.past (s.rest.takeWhile test)) with
  | some r => rfl
  | none =>
      rw [List.findSome?_eq_none_iff]
      intro e he
      exact h e (hshorter e he)

theorem run_plus_of_some (hne : s.rest.takeWhile test ≠ [])
    (h : accept (s.past (s.rest.takeWhile test)) = some r) : (plus test).run accept s = some r := by
  obtain ⟨before, rest, offset, groups⟩ := s
  cases rest with
  | nil => exact absurd rfl hne
  | cons c rest =>
      change (if test c = true then (star test).run accept ⟨some c, rest, offset + 1, groups⟩ else none) = _
      by_cases hc : test c = true
      · rw [List.takeWhile_cons_of_pos hc, Cursor.past_cons] at h
        rw [if_pos hc]
        exact run_star_of_some h
      · exact absurd (List.takeWhile_cons_of_neg hc) hne

theorem run_plus_of_nil (hnil : s.rest.takeWhile test = []) : (plus test).run accept s = none := by
  obtain ⟨before, rest, offset, groups⟩ := s
  cases rest with
  | nil => rfl
  | cons c rest =>
      change (if test c = true then (star test).run accept ⟨some c, rest, offset + 1, groups⟩ else none) = _
      by_cases hc : test c = true
      · rw [List.takeWhile_cons_of_pos hc] at hnil
        cases hnil
      · rw [if_neg hc]

theorem run_optGroup (test : Char → Bool) (accept : Cursor → Option α) (s : Cursor) :
    (opt (group (plus test))).run accept s =
      match (plus test).run (fun e => accept (Cursor.close s e)) s with
      | some r => some r
      | none => accept s :=
  rfl

theorem run_optGroup_of_some (hne : s.rest.takeWhile test ≠ [])
    (h : accept (Cursor.close s (s.past (s.rest.takeWhile test))) = some r) :
    (opt (group (plus test))).run accept s = some r := by
  rw [run_optGroup, run_plus_of_some hne h]

theorem run_optGroup_of_nil (hnil : s.rest.takeWhile test = []) :
    (opt (group (plus test))).run accept s = accept s := by
  rw [run_optGroup, run_plus_of_nil hnil]

theorem run_chars (cs : List Char) (accept : Cursor → Option α) (s : Cursor) :
    (chain (cs.map char)).run accept s = if cs <+: s.rest then accept (s.past cs) else none := by
  induction cs generalizing s with
  | nil =>
      rw [if_pos (List.nil_prefix)]
      rfl
  | cons c cs ih =>
      obtain ⟨before, rest, offset, groups⟩ := s
      cases rest with
      | nil =>
          rw [if_neg (by simp)]
          rfl
      | cons d rest =>
          change (if (d == c) = true then
            (chain (cs.map char)).run accept ⟨some d, rest, offset + 1, groups⟩ else none) = _
          by_cases hd : d = c
          · subst hd
            rw [if_pos (beq_self_eq_true d), ih, Cursor.past_cons]
            simp only [List.cons_prefix_cons, true_and]
          · rw [if_neg (by simpa using hd), if_neg]
            rw [List.cons_prefix_cons]
            exact fun h => hd h.1.symm

theorem run_literal (word : String) (accept : Cursor → Option α) (s : Cursor) :
    (literal word).run accept s =
      if word.toList <+: s.rest then accept (s.past word.toList) else none :=
  run_chars word.toList accept s

end Pattern

end Chunkwise
