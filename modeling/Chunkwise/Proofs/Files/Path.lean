import Chunkwise.Files.Path
import Mathlib.Data.List.Lex
import Mathlib.Data.String.Basic

namespace Chunkwise

namespace Path

variable {p q : Path} {names pieces : List String} {n s : String}

@[mk_iff]
structure IsName (n : String) : Prop where
  ne_empty : n ≠ ""
  ne_dot : n ≠ "."
  not_mem : '/' ∉ n.toList

instance (n : String) : Decidable (IsName n) :=
  decidable_of_iff _ (isName_iff n).symm

structure IsNormal (p : Path) : Prop where
  root : p.root = "" ∨ p.root = "/" ∨ p.root = "//"
  names : ∀ n ∈ p.names, IsName n

theorem not_of_mem_splitOnP {sep : Char → Bool} {t piece : List Char} (h : piece ∈ t.splitOnP sep) :
    ∀ c ∈ piece, sep c = false := by
  induction t generalizing piece with
  | nil => simp_all
  | cons d t ih =>
      rw [List.splitOnP_cons_eq_if_modifyHead] at h
      split at h
      · rcases List.mem_cons.mp h with rfl | h
        · simp
        · exact ih h
      · next hd =>
          obtain ⟨first, rest, hsplit⟩ := List.exists_cons_of_ne_nil (List.splitOnP_ne_nil sep t)
          rw [hsplit, List.modifyHead_cons] at h
          rcases List.mem_cons.mp h with rfl | h
          · exact List.forall_mem_cons.mpr
              ⟨Bool.eq_false_iff.mpr hd, ih (hsplit ▸ List.mem_cons_self)⟩
          · exact ih (hsplit ▸ List.mem_cons_of_mem _ h)

theorem not_mem_of_mem_piecesOf (h : n ∈ piecesOf s) : '/' ∉ n.toList := by
  obtain ⟨piece, hpiece, rfl⟩ := List.mem_map.mp h
  rw [String.toList_ofList]
  intro hslash
  simpa using not_of_mem_splitOnP hpiece '/' hslash

theorem piecesOf_intercalate (hpieces : ∀ n ∈ pieces, '/' ∉ n.toList) (hne : pieces ≠ []) :
    piecesOf (String.intercalate "/" pieces) = pieces := by
  have hsplit : ((['/'].intercalate (pieces.map String.toList)).splitOn '/') =
      pieces.map String.toList :=
    List.splitOn_intercalate '/' (by simpa using hpieces) (by simpa using hne)
  rw [piecesOf, String.toList_intercalate]
  change ((List.intercalate ['/'] _).splitOn '/').map _ = _
  rw [hsplit]
  simp [Function.comp_def]

theorem rootOf_cases (s : String) : rootOf s = "" ∨ rootOf s = "/" ∨ rootOf s = "//" := by
  rw [rootOf]
  split
  · exact .inr (.inl rfl)
  · exact .inr (.inr rfl)
  · exact .inr (.inl rfl)
  · exact .inl rfl

theorem isNormal_ofString (s : String) : (ofString s).IsNormal := by
  refine ⟨rootOf_cases s, fun n hn => ?_⟩
  obtain ⟨hpiece, hkept⟩ := List.mem_filter.mp hn
  simp only [Bool.and_eq_true, bne_iff_ne] at hkept
  exact ⟨hkept.1, hkept.2, not_mem_of_mem_piecesOf hpiece⟩

namespace IsNormal

theorem append (h : p.IsNormal) (hnames : ∀ n ∈ names, IsName n) : (p.append names).IsNormal :=
  ⟨h.root, fun n hn => (List.mem_append.mp hn).elim (h.names n) (hnames n)⟩

theorem toString_eq (h : p.IsNormal) :
    ∃ before : List String, (∀ n ∈ before, n = "" ∨ n = "." ∧ p = ⟨"", []⟩) ∧
      before ++ p.names ≠ [] ∧ p.toString = String.intercalate "/" (before ++ p.names) := by
  obtain ⟨root, names⟩ := p
  -- A root makes an empty piece for each of its slashes, and one more where no name follows.
  rcases h.root with hroot | hroot | hroot
  all_goals
    obtain rfl : root = _ := hroot
    cases names
  · exact ⟨["."], by simp, by simp, rfl⟩
  · exact ⟨[], by simp, by simp, by simp [toString]⟩
  · exact ⟨["", ""], by simp, by simp, rfl⟩
  · exact ⟨[""], by simp, by simp, by simp [toString, String.intercalate_cons_cons]⟩
  · exact ⟨["", "", ""], by simp, by simp, rfl⟩
  · exact ⟨["", ""], by simp, by simp, by
      simp [toString, String.intercalate_cons_cons, ← String.append_assoc]⟩

theorem piecesOf_toString (h : p.IsNormal) :
    ∃ before : List String, (∀ n ∈ before, n = "" ∨ n = "." ∧ p = ⟨"", []⟩) ∧
      piecesOf p.toString = before ++ p.names := by
  obtain ⟨before, hbefore, hne, hwritten⟩ := h.toString_eq
  refine ⟨before, hbefore, ?_⟩
  rw [hwritten]
  apply piecesOf_intercalate _ hne
  intro n hn
  rcases List.mem_append.mp hn with hn | hn
  · rcases hbefore n hn with rfl | ⟨rfl, -⟩
    · simp
    · simp
  · exact (h.names n hn).not_mem

theorem rootOf_toString (h : p.IsNormal) : rootOf p.toString = p.root := by
  obtain ⟨root, names⟩ := p
  have hroot := h.root
  cases names with
  | nil => rcases hroot with rfl | rfl | rfl <;> rfl
  | cons name names =>
      have hname := h.names name List.mem_cons_self
      obtain ⟨c, t, hlist⟩ := List.exists_cons_of_ne_nil (mt String.toList_eq_nil_iff.mp hname.ne_empty)
      have hslash : c ≠ '/' := by
        rintro rfl
        exact hname.not_mem (hlist ▸ List.mem_cons_self)
      have hjoined : ∃ rest, (String.intercalate "/" (name :: names)).toList = c :: rest := by
        cases names with
        | nil => exact ⟨t, by rw [String.intercalate_singleton, hlist]⟩
        | cons second names => exact ⟨_, by rw [String.intercalate_cons_cons]; simp [hlist]; rfl⟩
      obtain ⟨rest, hrest⟩ := hjoined
      rcases hroot with rfl | rfl | rfl
      all_goals simp [rootOf, toString, hrest, hslash]

theorem ofString_toString (h : p.IsNormal) : ofString p.toString = p := by
  obtain ⟨before, hbefore, hpieces⟩ := h.piecesOf_toString
  have hnone : before.filter (fun n => n != "" && n != ".") = [] := by
    rw [List.filter_eq_nil_iff]
    intro n hn
    rcases hbefore n hn with rfl | ⟨rfl, -⟩
    · simp
    · simp
  have hall : p.names.filter (fun n => n != "" && n != ".") = p.names := by
    rw [List.filter_eq_self]
    intro n hn
    simp [(h.names n hn).ne_empty, (h.names n hn).ne_dot]
  rw [ofString, h.rootOf_toString, hpieces, List.filter_append, hnone, hall, List.nil_append]

end IsNormal

theorem toString_inj (hp : p.IsNormal) (hq : q.IsNormal) : p.toString = q.toString ↔ p = q := by
  constructor
  · intro h
    rw [← hp.ofString_toString, h, hq.ofString_toString]
  · rintro rfl
    rfl

def below (folder : String) (names : List String) : String :=
  ((ofString folder).append names).toString

theorem ofString_below (hnames : ∀ n ∈ names, IsName n) :
    ofString (below s names) = (ofString s).append names :=
  ((isNormal_ofString s).append hnames).ofString_toString

theorem below_inj {names' : List String} (hnames : ∀ n ∈ names, IsName n)
    (hnames' : ∀ n ∈ names', IsName n) (h : below s names = below s names') : names = names' := by
  have hpath := congrArg ofString h
  rw [ofString_below hnames, ofString_below hnames'] at hpath
  exact List.append_cancel_left (congrArg Path.names hpath)

theorem namesLe_iff {xs ys : List String} :
    namesLe xs ys = true ↔ xs = ys ∨ List.Lex (· < ·) xs ys := by
  induction xs generalizing ys with
  | nil => cases ys <;> simp [namesLe]
  | cons x xs ih =>
      cases ys with
      | nil => simp [namesLe]
      | cons y ys =>
          simp only [namesLe, Bool.or_eq_true, decide_eq_true_eq, Bool.and_eq_true, beq_iff_eq, ih,
            List.cons.injEq, List.cons_lex_cons_iff]
          tauto

theorem namesLe_trans {xs ys zs : List String} (h : namesLe xs ys = true)
    (h' : namesLe ys zs = true) : namesLe xs zs = true := by
  rw [namesLe_iff] at *
  rcases h with rfl | h
  · exact h'
  · rcases h' with rfl | h'
    · exact .inr h
    · exact .inr (@lt_trans (List String) _ xs ys zs h h')

theorem namesLe_total (xs ys : List String) : (namesLe xs ys || namesLe ys xs) = true := by
  rw [Bool.or_eq_true, namesLe_iff, namesLe_iff]
  rcases trichotomous_of (List.Lex (· < ·)) xs ys with h | h | h
  · exact .inl (.inr h)
  · exact .inl (.inl h)
  · exact .inr (.inr h)

end Path

end Chunkwise
