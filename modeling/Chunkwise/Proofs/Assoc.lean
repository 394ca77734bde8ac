import Mathlib.Data.List.Induction
import Mathlib.Data.List.Nodup

namespace Chunkwise

variable {κ α : Type} [BEq κ] [LawfulBEq κ] {entries : List (κ × α)} {key other : κ} {value : α}

theorem lookup_filter_ne (entries : List (κ × α)) (h : other ≠ key) :
    (entries.filter (·.1 != key)).lookup other = entries.lookup other := by
  induction entries with
  | nil => rfl
  | cons entry entries ih =>
      obtain ⟨first, value⟩ := entry
      by_cases hfirst : first = key
      · have hother : (other == first) = false := by rw [hfirst, beq_eq_false_iff_ne.mpr h]
        rw [List.filter_cons_of_neg (by simp [hfirst]), ih, List.lookup_cons, hother]
      · rw [List.filter_cons_of_pos (by simp [hfirst]), List.lookup_cons, List.lookup_cons, ih]

theorem lookup_filter_self (entries : List (κ × α)) (key : κ) :
    (entries.filter (·.1 != key)).lookup key = none := by
  simpa [List.lookup_eq_none_iff] using fun first value _ hne => Ne.symm hne

theorem mem_of_lookup (h : entries.lookup key = some value) : (key, value) ∈ entries := by
  obtain ⟨before, rest, rfl, -⟩ := List.lookup_eq_some_iff.mp h
  simp

theorem exists_lookup_iff : (∃ value, entries.lookup key = some value) ↔ key ∈ entries.map Prod.fst := by
  rw [← Option.isSome_iff_exists, List.lookup_isSome_iff, List.mem_map]
  simp only [beq_iff_eq]
  exact exists_congr fun entry => and_congr_right fun _ => eq_comm

theorem eraseDups_concat [BEq α] [LawfulBEq α] (xs : List α) (x : α) :
    (xs ++ [x]).eraseDups = if x ∈ xs then xs.eraseDups else xs.eraseDups ++ [x] := by
  rw [List.eraseDups_append]
  by_cases h : x ∈ xs
  · simp [h, List.removeAll]
  · simp [h, List.removeAll, List.eraseDups_cons]

theorem nodup_eraseDups [BEq α] [LawfulBEq α] (xs : List α) :
    xs.eraseDups.Nodup := by
  induction xs using List.reverseRecOn with
  | nil => exact .nil
  | append_singleton xs x ih =>
      rw [eraseDups_concat]
      split
      · exact ih
      · next hx =>
          rw [← List.concat_eq_append]
          exact ih.concat (mt List.mem_eraseDups.mp hx)

end Chunkwise
