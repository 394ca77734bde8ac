import Chunkwise.Proofs.Declaration.Header
import Mathlib.Order.Bounds.Basic

namespace Chunkwise

namespace Declaration

variable {t rest : Text} {start f stop depth i j k : Nat}

structure Matched (t : Text) (start f stop : Nat) : Prop where
  first : IsLeast {k | start ≤ k ∧ t[k]? = some '{'} f
  closes : IsLeast {i | f < i ∧ i < t.length ∧
    (t.slice f (i + 1)).count '{' = (t.slice f (i + 1)).count '}'} stop

def Returns (depth : Nat) (t : Text) (k : Nat) : Prop :=
  k < t.length ∧ depth + (t.take (k + 1)).count '{' = (t.take (k + 1)).count '}'

theorem exists_isLeast_succ {p q : Nat → Prop} (hzero : ¬ p 0) (hsucc : ∀ k, p (k + 1) ↔ q k) :
    (∃ k, j = i + 1 + k ∧ IsLeast {k | q k} k) ↔ ∃ k, j = i + k ∧ IsLeast {k | p k} k := by
  constructor
  · rintro ⟨k, hj, hk, hleast⟩
    refine ⟨k + 1, by omega, (hsucc k).mpr hk, fun m hm => ?_⟩
    cases m with
    | zero => exact absurd hm hzero
    | succ m => exact Nat.succ_le_succ (hleast ((hsucc m).mp hm))
  · rintro ⟨k, hj, hk, hleast⟩
    cases k with
    | zero => exact absurd hk hzero
    | succ k =>
        refine ⟨k, by omega, (hsucc k).mp hk, fun m hm => ?_⟩
        exact Nat.le_of_succ_le_succ (hleast ((hsucc m).mpr hm))

theorem returns_open : Returns depth ('{' :: t) (k + 1) ↔ Returns (depth + 1) t k := by
  simp [Returns, Nat.add_assoc, Nat.add_comm 1]

theorem returns_close : Returns (depth + 1) ('}' :: t) (k + 1) ↔ Returns depth t k := by
  simp [Returns]
  omega

theorem returns_plain {c : Char} (hopen : c ≠ '{') (hclose : c ≠ '}') :
    Returns depth (c :: t) (k + 1) ↔ Returns depth t k := by
  simp [Returns, hopen, hclose]

theorem closingBrace?_eq_some_iff : closingBrace? (depth + 1) i t = some j ↔
    ∃ k, j = i + k ∧ IsLeast {k | Returns (depth + 1) t k} k := by
  -- only a brace that closes the last open one ends the search where it stands
  induction t generalizing depth i with
  | nil =>
      refine iff_of_false (Option.some_ne_none j).symm ?_
      rintro ⟨k, -, ⟨hk, -⟩, -⟩
      exact Nat.not_lt_zero k hk
  | cons c t ih =>
      rw [closingBrace?]
      by_cases hopen : c = '{'
      · subst hopen
        rw [if_pos rfl, ih]
        exact exists_isLeast_succ (by simp [Returns]) fun k => returns_open
      rw [if_neg hopen]
      by_cases hclose : c = '}'
      · subst hclose
        cases depth with
        | zero =>
            have hfirst : IsLeast {k | Returns 1 ('}' :: t) k} 0 :=
              ⟨by simp [Returns], fun _ _ => Nat.zero_le _⟩
            simp only [decide_true, Bool.and_self, if_true, Option.some.injEq]
            constructor
            · rintro rfl
              exact ⟨0, rfl, hfirst⟩
            · rintro ⟨k, rfl, hk⟩
              rw [hk.unique hfirst, Nat.add_zero]
        | succ depth =>
            simp only [decide_true, Bool.true_and, decide_eq_true_eq, if_true]
            rw [if_neg (by omega), Nat.add_sub_cancel, ih]
            exact exists_isLeast_succ (by simp [Returns]) fun k => returns_close
      · simp only [hclose, decide_false, Bool.false_and, Bool.false_eq_true, if_false]
        rw [ih]
        exact exists_isLeast_succ (by simp [Returns, hopen, hclose]) fun k => returns_plain hopen hclose

theorem closingBrace?_append_of_not_mem {head : Text} (h : '{' ∉ head) (i : Nat) (rest : Text) :
    closingBrace? 0 i (head ++ rest) = closingBrace? 0 (i + head.length) rest := by
  induction head generalizing i with
  | nil => rfl
  | cons c head ih =>
      obtain ⟨hc, hhead⟩ := List.ne_and_not_mem_of_not_mem_cons h
      rw [List.cons_append, closingBrace?, if_neg (Ne.symm hc)]
      simp only [Nat.zero_ne_one, decide_false, Bool.and_false, Bool.false_eq_true, if_false,
        Nat.zero_sub, ite_self]
      rw [ih hhead, List.length_cons, Nat.add_right_comm, Nat.add_assoc]

theorem closingBrace?_of_not_mem (h : '{' ∉ t) : closingBrace? 0 i t = none := by
  rw [← List.append_nil t, closingBrace?_append_of_not_mem h]
  rfl

theorem isLeast_open {head : Text} (ht : t.drop start = head ++ '{' :: rest) (h : '{' ∉ head) :
    IsLeast {k | start ≤ k ∧ t[k]? = some '{'} (start + head.length) := by
  have hget : ∀ d, t[start + d]? = (head ++ '{' :: rest)[d]? := by
    intro d
    rw [← ht, List.getElem?_drop]
  refine ⟨⟨Nat.le_add_right _ _, by simp [hget]⟩, ?_⟩
  rintro k ⟨hk, hopen⟩
  obtain ⟨d, rfl⟩ := Nat.exists_eq_add_of_le hk
  refine Nat.add_le_add_left (Nat.not_lt.mp fun hd => h ?_) start
  rw [hget, List.getElem?_append_left hd] at hopen
  exact List.mem_of_getElem? hopen

theorem slice_open (ht : t.drop f = '{' :: rest) (k : Nat) :
    t.slice f (f + 1 + k + 1) = '{' :: rest.take (k + 1) := by
  rw [Text.slice, ht, show f + 1 + k + 1 - f = k + 1 + 1 by omega, List.take_succ_cons]

theorem closes_iff_returns (ht : t.drop f = '{' :: rest) (k : Nat) :
    (f + 1 + k < t.length ∧ (t.slice f (f + 1 + k + 1)).count '{' =
      (t.slice f (f + 1 + k + 1)).count '}') ↔ Returns 1 rest k := by
  have hlength := congrArg List.length ht
  rw [List.length_drop, List.length_cons] at hlength
  rw [slice_open ht, Returns, List.count_cons_self, List.count_cons_of_ne (by decide), Nat.add_comm 1]
  exact and_congr_left fun _ => by omega

theorem isLeast_closes_iff (ht : t.drop f = '{' :: rest) :
    IsLeast {i | f < i ∧ i < t.length ∧
      (t.slice f (i + 1)).count '{' = (t.slice f (i + 1)).count '}'} stop ↔
      ∃ k, stop = f + 1 + k ∧ IsLeast {k | Returns 1 rest k} k := by
  constructor
  · rintro ⟨⟨hf, hstop⟩, hleast⟩
    obtain ⟨k, rfl⟩ := Nat.exists_eq_add_of_le (Nat.succ_le_of_lt hf)
    refine ⟨k, rfl, (closes_iff_returns ht k).mp hstop, fun m hm => ?_⟩
    have := hleast ⟨by omega, (closes_iff_returns ht m).mpr hm⟩
    omega
  · rintro ⟨k, rfl, hk, hleast⟩
    refine ⟨⟨by omega, (closes_iff_returns ht k).mpr hk⟩, ?_⟩
    rintro i ⟨hf, hi⟩
    obtain ⟨m, rfl⟩ := Nat.exists_eq_add_of_le (Nat.succ_le_of_lt hf)
    exact Nat.add_le_add_left (hleast ((closes_iff_returns ht m).mp hi)) _

theorem closingBrace?_drop_iff :
    closingBrace? 0 0 (t.drop start) = some j ↔ ∃ f, Matched t start f (start + j) := by
  by_cases h : '{' ∈ t.drop start
  · obtain ⟨head, rest, ht, hhead⟩ := List.eq_append_cons_of_mem h
    have hopen := isLeast_open ht hhead
    have hrest : t.drop (start + head.length) = '{' :: rest := by
      rw [← List.drop_drop, ht, List.drop_left]
    rw [ht, closingBrace?_append_of_not_mem hhead, closingBrace?, if_pos rfl,
      closingBrace?_eq_some_iff]
    constructor
    · rintro ⟨k, hj, hk⟩
      exact ⟨_, hopen, (isLeast_closes_iff hrest).mpr ⟨k, by omega, hk⟩⟩
    · rintro ⟨f, hf, hcloses⟩
      obtain rfl := hf.unique hopen
      obtain ⟨k, hj, hk⟩ := (isLeast_closes_iff hrest).mp hcloses
      exact ⟨k, by omega, hk⟩
  · rw [closingBrace?_of_not_mem h]
    refine iff_of_false (Option.some_ne_none j).symm ?_
    rintro ⟨f, ⟨⟨hstart, hf⟩, -⟩, -⟩
    obtain ⟨d, rfl⟩ := Nat.exists_eq_add_of_le hstart
    rw [← List.getElem?_drop] at hf
    exact h (List.mem_of_getElem? hf)

theorem closingBrace?_take_append (h : closingBrace? depth i t = some j) (rest : Text) :
    closingBrace? depth i (t.take (j + 1 - i) ++ rest) = some j := by
  induction t generalizing depth i with
  | nil => cases h
  | cons c t ih =>
      have hi := (closingBrace?_bounds h).1
      rw [Nat.sub_add_comm hi, List.take_succ_cons, List.cons_append]
      rcases closingBrace?_cons depth i c with ⟨-, hend⟩ | ⟨next, hnext⟩
      · rw [hend] at h ⊢
        exact h
      · rw [hnext] at h ⊢
        have hrest := ih h
        rwa [Nat.add_sub_add_right] at hrest

theorem endOffset_of_closing (h : closingBrace? 0 0 (t.drop start) = some j) :
    endOffset t start .closingBrace = ((start + j : Nat) : Int) := by
  simp only [endOffset, startOffset_natCast, extent?, h, Int.natCast_add]

theorem endOffset_of_not_closing (h : closingBrace? 0 0 (t.drop start) = none) :
    endOffset t start .closingBrace = (t.length : Int) - 1 := by
  simp only [endOffset, startOffset_natCast, extent?, h]

theorem endingOfLabel_of_ne {label : String} (htype : label ≠ "type") (hconst : label ≠ "const") :
    endingOfLabel label = .closingBrace := by
  have hlabels : (label == DeclarationForm.typeAlias.label ||
      label == DeclarationForm.constant.label) = false := by
    simp [DeclarationForm.label, htype, hconst]
  rw [endingOfLabel, hlabels, if_neg Bool.false_ne_true]

namespace Matched

theorem closing (h : Matched t start f stop) :
    ∃ j, stop = start + j ∧ closingBrace? 0 0 (t.drop start) = some j := by
  have hstart : start ≤ f := h.first.1.1
  have hstop : f < stop := h.closes.1.1
  obtain ⟨j, rfl⟩ := Nat.exists_eq_add_of_le (hstart.trans (Nat.le_of_lt hstop))
  exact ⟨j, rfl, closingBrace?_drop_iff.mpr ⟨f, h⟩⟩

theorem lt_length (h : Matched t start f stop) : stop < t.length :=
  h.closes.1.2.1

theorem endOffset_eq (h : Matched t start f stop) : endOffset t start .closingBrace = stop := by
  obtain ⟨j, rfl, hj⟩ := h.closing
  exact endOffset_of_closing hj

theorem endOffset_take_append (h : Matched t start f stop) (rest : Text) :
    endOffset (t.take (stop + 1) ++ rest) start .closingBrace = stop := by
  have hlength := h.lt_length
  obtain ⟨j, rfl, hj⟩ := h.closing
  apply endOffset_of_closing
  have hdrop : List.drop start (t.take (start + j + 1) ++ rest) =
      (t.drop start).take (j + 1 - 0) ++ rest := by
    rw [List.drop_append_of_le_length (by rw [List.length_take]; omega), List.drop_take,
      show start + j + 1 - start = j + 1 - 0 by omega]
  rw [hdrop]
  exact closingBrace?_take_append hj rest

theorem endOffset_append (h : Matched t start f stop) (rest : Text) :
    endOffset (t ++ rest) start .closingBrace = stop := by
  have hsplit : t ++ rest = t.take (stop + 1) ++ (t.drop (stop + 1) ++ rest) := by
    rw [← List.append_assoc, List.take_append_drop]
  rw [hsplit]
  exact h.endOffset_take_append _

end Matched

theorem endOffset_at_matching_brace {label : String} (htype : label ≠ "type") (hconst : label ≠ "const")
    (hstart : start < t.length) :
    (∀ f stop, Matched t start f stop →
      endOffset t start (endingOfLabel label) = stop ∧
      ∀ rest, endOffset (t ++ rest) start (endingOfLabel label) = stop ∧
        endOffset (t.take (stop + 1) ++ rest) start (endingOfLabel label) = stop) ∧
    ((∀ f stop, ¬ Matched t start f stop) →
      endOffset t start (endingOfLabel label) = (t.length : Int) - 1) ∧
    start ≤ endOffset t start (endingOfLabel label) ∧
    endOffset t start (endingOfLabel label) < t.length := by
  rw [endingOfLabel_of_ne htype hconst]
  refine ⟨fun f stop h => ⟨h.endOffset_eq, fun rest => ⟨h.endOffset_append rest,
    h.endOffset_take_append rest⟩⟩, fun h => ?_, ?_⟩
  · apply endOffset_of_not_closing
    rw [Option.eq_none_iff_forall_ne_some]
    intro j hj
    obtain ⟨f, hf⟩ := closingBrace?_drop_iff.mp hj
    exact h f _ hf
  · cases hclosing : closingBrace? 0 0 (t.drop start) with
    | some j =>
        obtain ⟨f, hf⟩ := closingBrace?_drop_iff.mp hclosing
        have := hf.lt_length
        rw [hf.endOffset_eq]
        omega
    | none =>
        rw [endOffset_of_not_closing hclosing]
        omega

def nestedBody : Text :=
  "function f() \x7b if (x) \x7b y \x7d \x7d // \x7d".toList

theorem endOffset_at_matching_brace_nestedBody :
    "function" ≠ "type" ∧ "function" ≠ "const" ∧ 0 < nestedBody.length ∧
      Matched nestedBody 0 13 28 ∧
      endOffset nestedBody (0 : Nat) (endingOfLabel "function") = 28 ∧
      endOffset (nestedBody ++ ['}']) (0 : Nat) (endingOfLabel "function") = 28 := by
  obtain ⟨f, hmatched⟩ := closingBrace?_drop_iff.mp
    (show closingBrace? 0 0 (nestedBody.drop 0) = some 28 by decide)
  have hopen : nestedBody.drop 0 = "function f() ".toList ++ '{' :: nestedBody.drop 14 := rfl
  obtain rfl : f = 13 := hmatched.first.unique (isLeast_open hopen (by decide))
  obtain ⟨hends, -⟩ := endOffset_at_matching_brace (show "function" ≠ "type" by decide)
    (show "function" ≠ "const" by decide) (show 0 < nestedBody.length by decide)
  obtain ⟨hend, hkeeps⟩ := hends 13 28 hmatched
  exact ⟨by decide, by decide, by decide, hmatched, hend, (hkeeps _).1⟩

end Declaration

end Chunkwise
