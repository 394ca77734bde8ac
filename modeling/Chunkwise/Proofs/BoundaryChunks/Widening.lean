import Chunkwise.Proofs.BoundaryChunks.Chunker
import Mathlib.Data.List.Forall2

namespace Chunkwise

namespace BoundaryChunks

variable {c : Setting} {x y z : Chunk} {xs ys : List Chunk}

inductive Widened (c : Setting) (x : Chunk) : Chunk → Prop
  | same : Widened c x x
  | grown (span : Span) (hplain : x.origin.isPart = false) (hfirst : span.first ≤ x.span.first)
      (hlast : x.span.last ≤ span.last) (hmore : x.span.size < span.size)
      (hsize : (span.size : Int) ≤ c.maxLines) :
      Widened c x (x.respan span (c.index.extract span.first span.last))

namespace Widened

theorem origin_eq (h : Widened c x y) : y.origin = x.origin := by
  cases h <;> rfl

theorem first_le (h : Widened c x y) : y.span.first ≤ x.span.first := by
  cases h with
  | same => exact Nat.le_refl _
  | grown span hplain hfirst hlast hmore hsize => exact hfirst

theorem le_last (h : Widened c x y) : x.span.last ≤ y.span.last := by
  cases h with
  | same => exact Nat.le_refl _
  | grown span hplain hfirst hlast hmore hsize => exact hlast

theorem size_le (h : Widened c x y) : x.span.size ≤ y.span.size := by
  have hfirst := h.first_le
  have hlast := h.le_last
  rw [Span.size, Span.size]
  omega

theorem trans (hxy : Widened c x y) (hyz : Widened c y z) : Widened c x z := by
  cases hyz with
  | same => exact hxy
  | grown span hplain hfirst hlast hmore hsize =>
      have hmoved : y.respan span (c.index.extract span.first span.last) =
          x.respan span (c.index.extract span.first span.last) := by
        cases hxy <;> rfl
      rw [hxy.origin_eq] at hplain
      rw [hmoved]
      exact .grown span hplain (Nat.le_trans hfirst hxy.first_le) (Nat.le_trans hxy.le_last hlast)
        (Nat.lt_of_le_of_lt hxy.size_le hmore) hsize

end Widened

theorem widened_growUp (c : Setting) (x : Chunk) : Widened c x (growUp c x) := by
  rw [growUp]
  split
  · exact .same
  · next hgrow =>
      simp only [Bool.or_eq_true, decide_eq_true_eq, not_or, Bool.not_eq_true] at hgrow
      obtain ⟨⟨hfirst, hplain⟩, hlast⟩ := hgrow
      have := x.span.first_le_last
      refine .grown _ hplain (Nat.le_of_lt (Nat.not_le.mp hfirst)) (Nat.le_refl _) ?_ ?_
      · simp only [Span.size]
        omega
      · simp only [Span.size]
        omega

theorem widened_growDown (c : Setting) (x : Chunk) : Widened c x (growDown c x) := by
  rw [growDown]
  split
  · next hlast =>
      split
      · exact .same
      · next hgrow =>
          simp only [Bool.or_eq_true, decide_eq_true_eq, not_or, Bool.not_eq_true] at hgrow
          have := x.span.first_le_last
          refine .grown _ hgrow.1 (Nat.le_refl _) (Nat.le_of_lt hlast) ?_ ?_
          · simp only [Span.size]
            omega
          · simp only [Span.size]
            omega
  · exact .same

theorem first_growUp (c : Setting) (x : Chunk) :
    (growUp c x).span.first =
      if x.origin.isPart = false ∧ (x.span.last : Int) ≤ c.maxLines then 1 else x.span.first := by
  have hpos := x.span.one_le_first
  rw [growUp]
  split
  · next hstays =>
      simp only [Bool.or_eq_true, decide_eq_true_eq] at hstays
      split
      · next hgrow =>
          simp only [hgrow.1, Bool.false_eq_true, or_false] at hstays
          omega
      · rfl
  · next hgrow =>
      simp only [Bool.or_eq_true, decide_eq_true_eq, not_or, Bool.not_eq_true] at hgrow
      rw [if_pos ⟨hgrow.1.2, Int.not_lt.mp hgrow.2⟩]
      rfl

theorem last_growDown (hlast : x.span.last ≤ c.index.lineCount) :
    (growDown c x).span.last =
      if x.origin.isPart = false ∧ (c.index.lineCount : Int) - x.span.first + 1 ≤ c.maxLines then
        c.index.lineCount
      else x.span.last := by
  rw [growDown]
  split
  · split
    · next hstays =>
        simp only [Bool.or_eq_true, decide_eq_true_eq] at hstays
        rw [if_neg]
        rintro ⟨hplain, hroom⟩
        simp only [hplain, Bool.false_eq_true, false_or] at hstays
        omega
    · next hgrow =>
        simp only [Bool.or_eq_true, decide_eq_true_eq, not_or, Bool.not_eq_true] at hgrow
        rw [if_pos ⟨hgrow.1, Int.not_lt.mp hgrow.2⟩]
        rfl
  · split
    · omega
    · rfl

theorem getElem?_changeFirst (f : Chunk → Chunk) (xs : List Chunk) (i : Nat) :
    (changeFirst f xs)[i]? = xs[i]?.map fun x => if i = 0 then f x else x := by
  cases xs with
  | nil => rfl
  | cons x xs => cases i <;> simp [changeFirst]

theorem getElem?_changeLast (f : Chunk → Chunk) (xs : List Chunk) (i : Nat) :
    (changeLast f xs)[i]? = xs[i]?.map fun x => if i + 1 = xs.length then f x else x := by
  rcases List.eq_nil_or_concat xs with rfl | ⟨xs, x, rfl⟩
  · rfl
  · rw [List.concat_eq_append, changeLast_concat, List.getElem?_append, List.getElem?_append,
      List.length_append, List.length_singleton]
    split
    · next hlt =>
        have hne : i ≠ xs.length := by omega
        simp [hne]
    · next hle =>
        by_cases hi : i = xs.length
        · simp [hi]
        · have hout : i - xs.length ≠ 0 := by omega
          simp [hi, hout]

def widenAt (c : Setting) (length i : Nat) (x : Chunk) : Chunk :=
  let x := if i = 0 then growUp c x else x
  if i + 1 = length then growDown c x else x

theorem getElem?_withContext (c : Setting) (xs : List Chunk) (i : Nat) :
    (withContext c xs)[i]? = xs[i]?.map (widenAt c xs.length i) := by
  rw [withContext, getElem?_changeLast, getElem?_changeFirst, Option.map_map, length_changeFirst]
  rfl

theorem widened_widenAt (c : Setting) (length i : Nat) (x : Chunk) :
    Widened c x (widenAt c length i x) := by
  have hup : Widened c x (if i = 0 then growUp c x else x) := by
    split
    · exact widened_growUp c x
    · exact .same
  rw [widenAt]
  split
  · exact hup.trans (widened_growDown c _)
  · exact hup

theorem first_widenAt (c : Setting) (length i : Nat) (x : Chunk) :
    (widenAt c length i x).span.first =
      if i = 0 ∧ x.origin.isPart = false ∧ (x.span.last : Int) ≤ c.maxLines then 1
      else x.span.first := by
  have hup : (widenAt c length i x).span.first = (if i = 0 then growUp c x else x).span.first := by
    rw [widenAt]
    split
    · exact growDown_first c _
    · rfl
  rw [hup]
  split
  · next hi =>
      simp only [first_growUp, hi, true_and]
  · next hi =>
      simp only [hi, false_and, if_false]

theorem last_widenAt (length i : Nat) (hlast : x.span.last ≤ c.index.lineCount) :
    (widenAt c length i x).span.last =
      if i + 1 = length ∧ x.origin.isPart = false ∧
          (c.index.lineCount : Int) - (widenAt c length i x).span.first + 1 ≤ c.maxLines then
        c.index.lineCount
      else x.span.last := by
  have hup : Widened c x (if i = 0 then growUp c x else x) ∧
      (if i = 0 then growUp c x else x).span.last = x.span.last := by
    split
    · exact ⟨widened_growUp c x, growUp_last c x⟩
    · exact ⟨.same, rfl⟩
  obtain ⟨hwidened, hsame⟩ := hup
  rw [widenAt]
  split
  · next hi =>
      rw [last_growDown (hsame ▸ hlast), growDown_first, hwidened.origin_eq, hsame]
      simp only [hi, true_and]
  · next hi =>
      rw [hsame]
      simp only [hi, false_and, if_false]

theorem forall₂_withContext (c : Setting) (xs : List Chunk) :
    List.Forall₂ (Widened c) xs (withContext c xs) := by
  rw [List.forall₂_iff_get]
  refine ⟨(length_withContext c xs).symm, fun i hx hy => ?_⟩
  have hget := getElem?_withContext c xs i
  rw [List.getElem?_eq_getElem hx, List.getElem?_eq_getElem hy, Option.map_some,
    Option.some.injEq] at hget
  rw [List.get_eq_getElem, List.get_eq_getElem, hget]
  exact widened_widenAt c xs.length i xs[i]

end BoundaryChunks

namespace BoundaryChunker

open BoundaryChunks

theorem exists_ofBoundaries_widened (language : String) (t : Text) {bs : List Boundary}
    {maxLines minLines : Int} (preserveContext : Bool) {plain : List Chunk}
    (hsweep : sweep ⟨LineIndex.ofText t, maxLines, minLines, language⟩ bs = .ok plain) :
    ∃ chunks, ofBoundaries language t bs maxLines minLines preserveContext = .ok chunks ∧
      List.Forall₂ (Widened ⟨LineIndex.ofText t, maxLines, minLines, language⟩) plain chunks := by
  rw [ofBoundaries, hsweep]
  cases preserveContext with
  | false => exact ⟨plain, rfl, List.forall₂_same.mpr fun x _ => .same⟩
  | true => exact ⟨_, rfl, forall₂_withContext _ plain⟩

theorem ofBoundaries_context_widens (language : String) (t : Text) (bs : List Boundary)
    (maxLines minLines : Int) (hmax : 1 ≤ maxLines) :
    ∃ plain wide, ofBoundaries language t bs maxLines minLines false = .ok plain ∧
      ofBoundaries language t bs maxLines minLines true = .ok wide ∧
      wide.length = plain.length ∧ ∀ i x y, plain[i]? = some x → wide[i]? = some y →
        Widened ⟨LineIndex.ofText t, maxLines, minLines, language⟩ x y ∧
        y.span.first =
          (if i = 0 ∧ x.origin.isPart = false ∧ x.span.last ≤ maxLines then 1 else x.span.first) ∧
        y.span.last =
          if i + 1 = plain.length ∧ x.origin.isPart = false ∧
              t.lines.length - y.span.first + 1 ≤ maxLines then t.lines.length
          else x.span.last := by
  obtain ⟨plain, hplain, hstack⟩ :=
    exists_ofBoundaries language t bs maxLines minLines false hmax
  obtain ⟨chunks, hsweep, hsame⟩ := map_eq_ok hplain
  have hwide : ofBoundaries language t bs maxLines minLines true =
      .ok (withContext ⟨LineIndex.ofText t, maxLines, minLines, language⟩ plain) := by
    rw [ofBoundaries, hsweep, ← hsame]
    rfl
  refine ⟨plain, _, hplain, hwide, length_withContext _ _, fun i x y hx hy => ?_⟩
  rw [getElem?_withContext, hx, Option.map_some, Option.some.injEq] at hy
  subst hy
  have hlast := last_widenAt (c := ⟨LineIndex.ofText t, maxLines, minLines, language⟩) plain.length i
    (hstack.last_le x (List.mem_of_getElem? hx))
  rw [LineIndex.lineCount_ofText] at hlast
  exact ⟨widened_widenAt _ _ _ _, first_widenAt _ _ _ _, hlast⟩

def functionInside : List Boundary :=
  [⟨2, 3, .function, some "f"⟩]

theorem ofBoundaries_context_widens_functionInside :
    ∃ x y, ofBoundaries "python" "#\nf\nf\nf()\n".toList functionInside 4 1 false = .ok [x] ∧
      ofBoundaries "python" "#\nf\nf\nf()\n".toList functionInside 4 1 true = .ok [y] ∧
      x.span.first = 2 ∧ x.span.last = 3 ∧ y.span.first = 1 ∧ y.span.last = 4 := by
  obtain ⟨plain, wide, hplain, hwide, hlength, h⟩ := ofBoundaries_context_widens "python"
    "#\nf\nf\nf()\n".toList functionInside 4 1 (by decide)
  obtain ⟨x, hx, hspan, horigin⟩ :
      ∃ x, ofBoundaries "python" "#\nf\nf\nf()\n".toList functionInside 4 1 false = .ok [x] ∧
        (x.span.first = 2 ∧ x.span.last = 3) ∧ x.origin.isPart = false := by
    rw [ofBoundaries, sweep, functionInside, List.mergeSort_singleton]
    exact ⟨_, rfl, ⟨rfl, rfl⟩, rfl⟩
  obtain rfl : plain = [x] := Except.ok.inj (hplain.symm.trans hx)
  obtain ⟨y, rfl⟩ := List.length_eq_one_iff.mp hlength
  obtain ⟨-, hfirst, hlast⟩ := h 0 x y rfl rfl
  rw [if_pos ⟨rfl, horigin, by rw [hspan.2]; decide⟩] at hfirst
  rw [if_pos ⟨rfl, horigin, by rw [hfirst]; decide⟩] at hlast
  exact ⟨x, y, hplain, hwide, hspan.1, hspan.2, hfirst, hlast⟩

end BoundaryChunker

end Chunkwise
