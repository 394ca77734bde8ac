import Chunkwise.Pattern.Basic
import Mathlib.Data.List.Basic

namespace Chunkwise

namespace Cursor

def Over (s : Cursor) (passed : Text) (e : Cursor) : Prop :=
  s.rest = passed ++ e.rest ∧ e.offset = s.offset + passed.length

theorem Over.refl (s : Cursor) : s.Over [] s :=
  ⟨rfl, rfl⟩

theorem Over.trans {s m e : Cursor} {passed further : Text} (h : s.Over passed m)
    (h' : m.Over further e) : s.Over (passed ++ further) e := by
  obtain ⟨hrest, hoffset⟩ := h
  obtain ⟨hrest', hoffset'⟩ := h'
  refine ⟨by rw [hrest, hrest', List.append_assoc], ?_⟩
  rw [List.length_append]
  omega

theorem Over.unique {s e : Cursor} {passed passed' : Text} (h : s.Over passed e)
    (h' : s.Over passed' e) : passed = passed' :=
  List.append_cancel_right (h.1.symm.trans h'.1)

theorem Over.close_groups {s e : Cursor} {passed : Text} (h : s.Over passed e) :
    (close s e).groups = passed :: e.groups := by
  have hlength : e.offset - s.offset = passed.length := by
    rw [h.2]
    omega
  rw [close, hlength, h.1, List.take_left]

end Cursor

namespace Pattern

inductive Passes : Pattern → Cursor → Cursor → Prop
  | empty (s : Cursor) : Passes empty s s
  | one {test : Char → Bool} {s : Cursor} {c : Char} {rest : Text} (hrest : s.rest = c :: rest)
      (hc : test c = true) : Passes (one test) s ⟨some c, rest, s.offset + 1, s.groups⟩
  | none (test : Char → Bool) (s : Cursor) : Passes (star test) s s
  | more {test : Char → Bool} {s m e : Cursor} (hfirst : Passes (one test) s m)
      (hrest : Passes (star test) m e) : Passes (star test) s e
  | seq {p q : Pattern} {s m e : Cursor} (hp : Passes p s m) (hq : Passes q m e) :
      Passes (seq p q) s e
  | left {p q : Pattern} {s e : Cursor} (hp : Passes p s e) : Passes (alt p q) s e
  | right {p q : Pattern} {s e : Cursor} (hq : Passes q s e) : Passes (alt p q) s e
  | group {p : Pattern} {s e : Cursor} (hp : Passes p s e) : Passes (group p) s (Cursor.close s e)
  | wordEdge {s : Cursor} (h : s.onWordEdge = true) : Passes wordEdge s s
  | start {s : Cursor} (h : s.before.isNone = true) : Passes start s s
  | finish {s : Cursor} (h : s.onFinish = true) : Passes finish s s

theorem passes_of_mem_run {test : Char → Bool} {groups : List Text} {before : Option Char}
    {offset : Nat} {rest : Text} {passed : List Cursor} {e : Cursor}
    (h : e ∈ Cursor.run test groups before offset rest passed) :
    e ∈ passed ∨ Passes (star test) ⟨before, rest, offset, groups⟩ e := by
  induction rest generalizing before offset passed with
  | nil =>
      rcases List.mem_cons.mp h with rfl | h
      · exact .inr (.none test _)
      · exact .inl h
  | cons c rest ih =>
      rw [Cursor.run] at h
      have hhere : e ∈ ⟨before, c :: rest, offset, groups⟩ :: passed →
          e ∈ passed ∨ Passes (star test) ⟨before, c :: rest, offset, groups⟩ e := by
        intro h
        rcases List.mem_cons.mp h with rfl | h
        · exact .inr (.none test _)
        · exact .inl h
      split at h
      · next hc =>
          rcases ih h with h | h
          · exact hhere h
          · exact .inr (.more (.one rfl hc) h)
      · exact hhere h

theorem run_eq_some {α : Type} {p : Pattern} {accept : Cursor → Option α} {s : Cursor} {r : α}
    (h : p.run accept s = some r) : ∃ e, Passes p s e ∧ accept e = some r := by
  induction p generalizing accept s with
  | empty => exact ⟨s, .empty s, h⟩
  | one test =>
      rw [run] at h
      split at h
      · cases h
      · next hrest =>
          split at h
          · next hc => exact ⟨_, .one hrest hc, h⟩
          · cases h
  | star test =>
      obtain ⟨e, hmem, he⟩ := List.exists_of_findSome?_eq_some h
      exact ⟨e, (passes_of_mem_run hmem).resolve_left List.not_mem_nil, he⟩
  | seq p q hp hq =>
      obtain ⟨m, hm, hrun⟩ := hp h
      obtain ⟨e, he, haccept⟩ := hq hrun
      exact ⟨e, .seq hm he, haccept⟩
  | alt p q hp hq =>
      rw [run] at h
      split at h
      · next hfound =>
          obtain ⟨e, he, haccept⟩ := hp (hfound.trans h)
          exact ⟨e, .left he, haccept⟩
      · obtain ⟨e, he, haccept⟩ := hq h
        exact ⟨e, .right he, haccept⟩
  | group p hp =>
      obtain ⟨e, he, haccept⟩ := hp h
      exact ⟨_, .group he, haccept⟩
  | wordEdge =>
      rw [run] at h
      split at h
      · next hedge => exact ⟨s, .wordEdge hedge, h⟩
      · cases h
  | start =>
      rw [run] at h
      split at h
      · next hstart => exact ⟨s, .start hstart, h⟩
      · cases h
  | finish =>
      rw [run] at h
      split at h
      · next hfinish => exact ⟨s, .finish hfinish, h⟩
      · cases h

theorem passes_of_matchAt {p : Pattern} {s : Cursor} {m : Match} (h : p.matchAt s = some m) :
    m.start = s ∧ Passes p s m.stop := by
  obtain ⟨e, he, hm⟩ := run_eq_some h
  cases hm
  exact ⟨rfl, he⟩

def tests : Pattern → List (Char → Bool)
  | one test | star test => [test]
  | seq p q | alt p q => p.tests ++ q.tests
  | group p => p.tests
  | empty | wordEdge | start | finish => []

def isPlain : Pattern → Bool
  | group _ => false
  | seq p q | alt p q => p.isPlain && q.isPlain
  | _ => true

def AdmittedBy (tests : List (Char → Bool)) (passed : Text) : Prop :=
  ∀ c ∈ passed, ∃ test ∈ tests, test c = true

namespace AdmittedBy

variable {tests more : List (Char → Bool)} {passed further : Text}

theorem mono (h : AdmittedBy tests passed) (hsub : tests ⊆ more) : AdmittedBy more passed := by
  intro c hc
  obtain ⟨test, htest, hadmits⟩ := h c hc
  exact ⟨test, hsub htest, hadmits⟩

theorem append (h : AdmittedBy tests passed) (h' : AdmittedBy tests further) :
    AdmittedBy tests (passed ++ further) :=
  List.forall_mem_append.mpr ⟨h, h'⟩

theorem not_mem {c : Char} (h : AdmittedBy tests passed) (hc : ∀ test ∈ tests, test c = false) :
    c ∉ passed := by
  intro hmem
  obtain ⟨test, htest, hadmits⟩ := h c hmem
  exact Bool.false_ne_true ((hc test htest).symm.trans hadmits)

end AdmittedBy

namespace Passes

variable {p : Pattern} {test : Char → Bool} {s e : Cursor}

theorem exists_passed_one (h : Passes (.one test) s e) : ∃ c, s.Over [c] e ∧ test c = true := by
  cases h with
  | one hrest hc => exact ⟨_, ⟨hrest, rfl⟩, hc⟩

theorem exists_passed (h : Passes p s e) : ∃ passed, s.Over passed e ∧ AdmittedBy p.tests passed := by
  induction h with
  | empty s | none test s | wordEdge h | start h | finish h =>
      exact ⟨[], .refl _, List.forall_mem_nil _⟩
  | @one test s c rest hrest hc =>
      exact ⟨[c], ⟨hrest, rfl⟩, List.forall_mem_singleton.mpr ⟨test, List.mem_singleton_self test, hc⟩⟩
  | more hfirst hrest ih ih' =>
      obtain ⟨passed, hover, hpassed⟩ := ih
      obtain ⟨further, hover', hfurther⟩ := ih'
      exact ⟨passed ++ further, hover.trans hover', hpassed.append hfurther⟩
  | seq hp hq ih ih' =>
      obtain ⟨passed, hover, hpassed⟩ := ih
      obtain ⟨further, hover', hfurther⟩ := ih'
      exact ⟨passed ++ further, hover.trans hover',
        (hpassed.mono (List.subset_append_left _ _)).append
          (hfurther.mono (List.subset_append_right _ _))⟩
  | left hp ih =>
      obtain ⟨passed, hover, hpassed⟩ := ih
      exact ⟨passed, hover, hpassed.mono (List.subset_append_left _ _)⟩
  | right hq ih =>
      obtain ⟨passed, hover, hpassed⟩ := ih
      exact ⟨passed, hover, hpassed.mono (List.subset_append_right _ _)⟩
  | group hp ih => exact ih

theorem exists_passed_plus (h : Passes (plus test) s e) :
    ∃ passed, s.Over passed e ∧ passed ≠ [] ∧ ∀ c ∈ passed, test c = true := by
  cases h with
  | seq hone hmore =>
      obtain ⟨c, hover, hc⟩ := hone.exists_passed_one
      obtain ⟨further, hover', hfurther⟩ := hmore.exists_passed
      refine ⟨c :: further, hover.trans hover', List.cons_ne_nil c further, ?_⟩
      rw [List.forall_mem_cons]
      refine ⟨hc, ?_⟩
      intro d hd
      obtain ⟨test, htest, hadmits⟩ := hfurther d hd
      exact List.mem_singleton.mp htest ▸ hadmits

theorem groups_eq (h : Passes p s e) (hp : p.isPlain = true) : e.groups = s.groups := by
  induction h with
  | empty | one | none | wordEdge | start | finish => rfl
  | more hfirst hrest ih ih' => exact (ih' hp).trans (ih hp)
  | seq hp hq ih ih' =>
      obtain ⟨hp, hq⟩ := Bool.and_eq_true_iff.mp hp
      exact (ih' hq).trans (ih hp)
  | left h ih => exact ih (Bool.and_eq_true_iff.mp hp).1
  | right h ih => exact ih (Bool.and_eq_true_iff.mp hp).2
  | group => cases hp

theorem exists_group (h : Passes (.group p) s e) (hp : p.isPlain = true) :
    ∃ m passed, Passes p s m ∧ s.Over passed m ∧ s.Over passed e ∧ e.groups = passed :: s.groups := by
  cases h with
  | @group p s m hinner =>
      obtain ⟨passed, hover, -⟩ := hinner.exists_passed
      exact ⟨m, passed, hinner, hover, hover, by rw [hover.close_groups, hinner.groups_eq hp]⟩

theorem append {ps qs : List Pattern} (h : Passes (chain (ps ++ qs)) s e) :
    ∃ m, Passes (chain ps) s m ∧ Passes (chain qs) m e := by
  induction ps generalizing s with
  | nil => exact ⟨s, .empty s, h⟩
  | cons p ps ih =>
      change Passes (Pattern.seq p (chain (ps ++ qs))) s e at h
      cases h with
      | seq hp hrest =>
          obtain ⟨m, hps, hqs⟩ := ih hrest
          exact ⟨m, .seq hp hps, hqs⟩

end Passes

end Pattern

def Match.StartsIn (m : Match) (offset : Nat) (t : Text) : Prop :=
  ∃ k < t.length, m.start.offset = offset + k ∧ m.start.rest = t.drop k

namespace Pattern

def MatchesIn (p : Pattern) (m : Match) (offset : Nat) (t : Text) : Prop :=
  ∃ before, ∃ k < t.length, p.matchAt ⟨before, t.drop k, offset + k, []⟩ = some m

variable {p : Pattern} {m : Match} {offset : Nat} {t : Text}

theorem MatchesIn.cons (c : Char) (h : p.MatchesIn m (offset + 1) t) : p.MatchesIn m offset (c :: t) := by
  obtain ⟨before, k, hk, hmatch⟩ := h
  refine ⟨before, k + 1, Nat.succ_lt_succ hk, ?_⟩
  rw [List.drop_succ_cons, ← hmatch, Nat.add_right_comm, Nat.add_assoc]

theorem matchesIn_of_mem_findFrom {free : Nat} {found : Array Match} {before : Option Char}
    (h : m ∈ p.findFrom free found before offset t) : m ∈ found ∨ p.MatchesIn m offset t := by
  induction t generalizing free found before offset with
  | nil => exact .inl h
  | cons c t ih =>
      rw [findFrom] at h
      split at h
      · exact (ih h).imp id (.cons c)
      · split at h
        · next m' hm' =>
            rcases ih h with hmem | hlater
            · rcases Array.mem_push.mp hmem with hmem | rfl
              · exact .inl hmem
              · exact .inr ⟨before, 0, Nat.succ_pos _, hm'⟩
            · exact .inr (.cons c hlater)
        · exact (ih h).imp id (.cons c)

theorem matchesIn_of_mem_findAll (h : m ∈ p.findAll t) : p.MatchesIn m 0 t := by
  rw [findAll, Array.mem_toList_iff] at h
  exact (matchesIn_of_mem_findFrom h).resolve_left (Array.not_mem_empty m)

theorem startsIn_of_mem_findAll (h : m ∈ p.findAll t) : m.StartsIn 0 t := by
  obtain ⟨before, k, hk, hmatch⟩ := matchesIn_of_mem_findAll h
  refine ⟨k, hk, ?_⟩
  rw [(passes_of_matchAt hmatch).1]
  exact ⟨rfl, rfl⟩

theorem passes_of_mem_findAll (h : m ∈ p.findAll t) : Passes p m.start m.stop ∧ m.start.groups = [] := by
  obtain ⟨before, k, -, hmatch⟩ := matchesIn_of_mem_findAll h
  obtain ⟨hstart, hpasses⟩ := passes_of_matchAt hmatch
  rw [hstart]
  exact ⟨hpasses, rfl⟩

end Pattern

end Chunkwise
