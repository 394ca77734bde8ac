import Chunkwise.Proofs.Declaration

namespace Chunkwise

namespace Declaration

variable {t : Text} {ix : LineIndex} {semicolons free : Nat} {found : Array Declaration}
  {d : Declaration} {h k : Header} {hs : List Header}

structure HeadedBy (t : Text) (d : Declaration) (m : Match) : Prop where
  found : ∃ pattern, (d.form, pattern) ∈ headers ∧ m ∈ pattern.findAll t
  start_eq : d.start = m.start.offset
  name_eq : d.name = String.ofList m.firstGroup

theorem Header.precedes_iff :
    h.precedes k = true ↔ h.start < k.start ∨ h.start = k.start ∧ h.rank ≤ k.rank := by
  simp [Header.precedes]

theorem Header.precedes_trans (h k l : Header) (hk : h.precedes k = true) (kl : k.precedes l = true) :
    h.precedes l = true := by
  rw [precedes_iff] at *
  omega

theorem Header.precedes_total (h k : Header) : (h.precedes k || k.precedes h) = true := by
  rw [Bool.or_eq_true, precedes_iff, precedes_iff]
  omega

theorem pairwise_headersOf (t : Text) : (headersOf t).Pairwise fun h k => h.start ≤ k.start := by
  apply (List.pairwise_mergeSort Header.precedes_trans Header.precedes_total _).imp
  intro h k hk
  rw [Header.precedes_iff] at hk
  omega

theorem exists_mem_headersOf {form : DeclarationForm} {pattern : Pattern} {m : Match}
    (hform : (form, pattern) ∈ headers) (hm : m ∈ pattern.findAll t) :
    ∃ rank, ⟨rank, form, m⟩ ∈ headersOf t := by
  obtain ⟨rank, hrank⟩ := List.mem_iff_getElem?.mp hform
  exact ⟨rank, mem_headersOf_iff.mpr ⟨pattern, List.mk_mem_zipIdx_iff_getElem?.mpr hrank, hm⟩⟩

theorem headedBy_ofHeader (hh : h ∈ headersOf t) : HeadedBy t (ofHeader ix semicolons h) h.found := by
  obtain ⟨pattern, hform, hfound⟩ := mem_headersOf_iff.mp hh
  exact ⟨⟨pattern, List.fst_mem_of_mem_zipIdx hform, hfound⟩, rfl, rfl⟩

section Ordered

variable (hstop : ∀ h ∈ hs, h.start ≤ (ofHeader ix semicolons h).stop)
include hstop

theorem free_le_of_mem_kept (hd : d ∈ kept ix semicolons free hs) : free ≤ d.start := by
  induction hs generalizing free with
  | nil => cases hd
  | cons h hs ih =>
      obtain ⟨hh, hhs⟩ := List.forall_mem_cons.mp hstop
      rw [kept] at hd
      split at hd
      · exact ih hhs hd
      · next hfree =>
          rcases List.mem_cons.mp hd with rfl | hd
          · exact Nat.not_lt.mp hfree
          · have := ih hhs hd
            omega

theorem pairwise_kept : (kept ix semicolons free hs).Pairwise fun d e => d.stop < e.start := by
  induction hs generalizing free with
  | nil => exact .nil
  | cons h hs ih =>
      have hhs := (List.forall_mem_cons.mp hstop).2
      rw [kept]
      split
      · exact ih hhs
      · refine .cons ?_ (ih hhs)
        intro e he
        exact free_le_of_mem_kept hhs he

end Ordered

theorem begins_or_within (hsorted : hs.Pairwise fun h k => h.start ≤ k.start) (hh : h ∈ hs) :
    h.start < free ∨ ofHeader ix semicolons h ∈ kept ix semicolons free hs ∨
      ∃ d ∈ kept ix semicolons free hs, d.start ≤ h.start ∧ h.start ≤ d.stop := by
  induction hs generalizing free with
  | nil => cases hh
  | cons k hs ih =>
      obtain ⟨hk, hrest⟩ := List.pairwise_cons.mp hsorted
      rw [kept]
      split
      · next hearly =>
          rcases List.mem_cons.mp hh with rfl | hh
          · exact .inl hearly
          · exact ih hrest hh
      · rcases List.mem_cons.mp hh with rfl | hh
        · exact .inr (.inl List.mem_cons_self)
        -- a later header that is too early for the rest starts within the declaration kept here
        · rw [List.exists_mem_cons_iff]
          rcases ih hrest hh with hwithin | hbegins | hlater
          · exact .inr (.inr (.inl ⟨hk h hh, Nat.le_of_lt_succ hwithin⟩))
          · exact .inr (.inl (List.mem_cons_of_mem _ hbegins))
          · exact .inr (.inr (.inr hlater))

theorem start_le_stop_of_mem_headersOf (semicolons : Nat) :
    ∀ h ∈ headersOf t, h.start ≤ (ofHeader (LineIndex.ofText t) semicolons h).stop := by
  intro h hh
  exact (in_ofHeader semicolons (startsIn_of_mem_headersOf hh)).start_le_stop

theorem pairwise_allOf (t : Text) : (allOf t).Pairwise fun d e => d.stop < e.start := by
  rw [allOf_eq_kept]
  exact pairwise_kept (start_le_stop_of_mem_headersOf _)

theorem exists_headedBy (hd : d ∈ allOf t) : ∃ m, HeadedBy t d m := by
  obtain ⟨h, hh, rfl⟩ := exists_header_of_mem_allOf hd
  exact ⟨h.found, headedBy_ofHeader hh⟩

theorem allOf_account_for_headers (t : Text) :
    ((allOf t).Pairwise fun d e => d.start < e.start ∧ d.stop < e.start) ∧
    (∀ d ∈ allOf t, d.start ≤ d.stop ∧ d.stop < t.length ∧ d.span.first ≤ d.span.last ∧
      d.span.first = (t.take d.start).count '\n' + 1 ∧
      d.span.last = (t.take d.stop).count '\n' + 1 ∧ ∃ m, HeadedBy t d m) ∧
    ∀ form pattern, (form, pattern) ∈ headers → ∀ m ∈ pattern.findAll t,
      (∃ d ∈ allOf t, d.form = form ∧ HeadedBy t d m) ∨
        ∃ d ∈ allOf t, d.start ≤ m.start.offset ∧ m.start.offset ≤ d.stop := by
  refine ⟨?_, ?_, ?_⟩
  · apply (pairwise_allOf t).imp_of_mem
    intro d e hd _ hde
    exact ⟨Nat.lt_of_le_of_lt (in_of_mem_allOf hd).start_le_stop hde, hde⟩
  · intro d hd
    have hin := in_of_mem_allOf hd
    exact ⟨hin.start_le_stop, hin.stop_lt, d.span.first_le_last, hin.first_eq, hin.last_eq,
      exists_headedBy hd⟩
  · intro form pattern hform m hm
    obtain ⟨rank, hh⟩ := exists_mem_headersOf hform hm
    rw [allOf_eq_kept]
    rcases begins_or_within (pairwise_headersOf t) hh with hearly | hbegins | hwithin
    · exact absurd hearly (Nat.not_lt_zero _)
    · exact .inl ⟨_, hbegins, rfl, headedBy_ofHeader hh⟩
    · exact .inr hwithin

def innerConstant : Text := "function f() \x7b const x = 2 \x7d".toList

theorem allOf_account_for_headers_innerConstant :
    ∃ pattern, (.constant, pattern) ∈ headers ∧ ∃ m ∈ pattern.findAll innerConstant,
      m.start.offset = 15 ∧
      ((∃ d ∈ allOf innerConstant, d.form = .constant ∧ HeadedBy innerConstant d m) ∨
        ∃ d ∈ allOf innerConstant, d.start ≤ 15 ∧ 15 ≤ d.stop) := by
  have hheader : headers[4] ∈ headers := List.getElem_mem _
  obtain ⟨m, hm⟩ := List.length_pos_iff_exists_mem.mp
    (show 0 < (headers[4].2.findAll innerConstant).length by decide)
  have hstart : ∀ m ∈ headers[4].2.findAll innerConstant, m.start.offset = 15 := by decide
  have hfate := (allOf_account_for_headers innerConstant).2.2 _ _ hheader m hm
  rw [hstart m hm] at hfate
  exact ⟨headers[4].2, hheader, m, hm, hstart m hm, hfate⟩

end Declaration

end Chunkwise
