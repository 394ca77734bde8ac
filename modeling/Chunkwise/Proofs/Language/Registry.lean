import Chunkwise.Language.Registry
import Chunkwise.Proofs.Assoc
import Mathlib.Data.String.Basic

namespace Chunkwise

namespace Registry

abbrev History (π : Type) := List (Request π)

variable {π : Type} {fallback p q : π} {r : Registry π} {history before : History π}
  {request : Request π} {key language : String} {check : π → Except Fault Bool}

namespace Request

def key? : Request π → Option String
  | register language _ | unregister language => some (Language.canonical language)
  | has _ | get _ _ | languages => none

def parser? : Request π → Option π
  | register _ p => some p
  | unregister _ | has _ | get _ _ | languages => none

theorem parser?_eq_some (h : request.parser? = some p) : ∃ language, request = .register language p := by
  cases request with
  | register language q =>
      cases h
      exact ⟨language, rfl⟩
  | unregister _ => cases h
  | has _ => cases h
  | get _ _ => cases h
  | languages => cases h

end Request

def Held (history : History π) (key : String) (p : π) : Prop :=
  ∃ later language before, history = later ++ .register language p :: before ∧
    Language.canonical language = key ∧ ∀ request ∈ later, request.key? ≠ some key

theorem not_held_nil (key : String) (p : π) : ¬ Held [] key p := by
  rintro ⟨later, language, before, h, -⟩
  simp at h

theorem held_cons_of_ne (h : request.key? ≠ some key) :
    Held (request :: before) key p ↔ Held before key p := by
  constructor
  · rintro ⟨later, language, rest, heq, hlanguage, hlater⟩
    cases later with
    | nil =>
        obtain ⟨rfl, rfl⟩ := List.cons.inj heq
        exact absurd (congrArg some hlanguage) h
    | cons first later =>
        obtain ⟨rfl, rfl⟩ := List.cons.inj heq
        exact ⟨later, language, rest, rfl, hlanguage, (List.forall_mem_cons.mp hlater).2⟩
  · rintro ⟨later, language, rest, rfl, hlanguage, hlater⟩
    exact ⟨request :: later, language, rest, rfl, hlanguage, List.forall_mem_cons.mpr ⟨h, hlater⟩⟩

theorem held_cons_of_eq (h : request.key? = some key) :
    Held (request :: before) key p ↔ request.parser? = some p := by
  constructor
  · rintro ⟨later, language, rest, heq, hlanguage, hlater⟩
    cases later with
    | nil =>
        obtain ⟨rfl, -⟩ := List.cons.inj heq
        rfl
    | cons first later =>
        obtain ⟨rfl, -⟩ := List.cons.inj heq
        exact absurd h (hlater _ List.mem_cons_self)
  · intro hparser
    obtain ⟨language, rfl⟩ := Request.parser?_eq_some hparser
    exact ⟨[], language, before, rfl, Option.some.inj h, by simp⟩

def registryAfter (fallback : π) : History π → Registry π
  | [] => .empty fallback
  | request :: before => ((registryAfter fallback before).answer request).2

theorem entries_answer (r : Registry π) (request : Request π) :
    (r.answer request).2.entries =
      match request.key? with
      | none => r.entries
      | some key => (request.parser?.toList.map (key, ·)) ++ r.entries.filter (·.1 != key) := by
  cases request with
  | register language p => rfl
  | unregister language => rfl
  | has language => rfl
  | get language check => rfl
  | languages => rfl

theorem lookup_answer (r : Registry π) (request : Request π) (key : String) :
    (r.answer request).2.entries.lookup key =
      if request.key? = some key then request.parser? else r.entries.lookup key := by
  rw [entries_answer]
  cases hkey : request.key? with
  | none => simp
  | some other =>
      simp only [Option.some.injEq, List.lookup_append]
      by_cases h : other = key
      · subst h
        cases request.parser? with
        | none => simp [lookup_filter_self]
        | some p => simp
      · have hlookup : (request.parser?.toList.map (other, ·)).lookup key = none := by
          cases request.parser? with
          | none => rfl
          | some p => simp [List.lookup_cons, beq_eq_false_iff_ne.mpr (Ne.symm h)]
        rw [if_neg h, hlookup, Option.none_or, lookup_filter_ne _ (Ne.symm h)]

theorem lookup_registryAfter (fallback : π) (history : History π) (key : String) (p : π) :
    (registryAfter fallback history).entries.lookup key = some p ↔ Held history key p := by
  induction history with
  | nil => simp [registryAfter, empty, not_held_nil]
  | cons request before ih =>
      rw [registryAfter, lookup_answer]
      by_cases h : request.key? = some key
      · rw [if_pos h, held_cons_of_eq h]
      · rw [if_neg h, held_cons_of_ne h, ih]

theorem nodup_registryAfter (fallback : π) (history : History π) :
    ((registryAfter fallback history).entries.map Prod.fst).Nodup := by
  induction history with
  | nil => simp [registryAfter, empty]
  | cons request before ih =>
      rw [registryAfter, entries_answer]
      cases request.key? with
      | none => exact ih
      | some key =>
          have hrest := (List.filter_sublist (p := (·.1 != key))).map Prod.fst |>.nodup ih
          cases request.parser? with
          | none => simpa using hrest
          | some p => simpa using hrest

@[simp] theorem fallback_registryAfter (fallback : π) (history : History π) :
    (registryAfter fallback history).fallback = fallback := by
  induction history with
  | nil => rfl
  | cons request before ih =>
      cases request with
      | register language p => exact ih
      | unregister language => exact ih
      | has language => exact ih
      | get language check => exact ih
      | languages => exact ih

theorem pairwise_languages (h : (r.entries.map Prod.fst).Nodup) : r.languages.Pairwise (· < ·) := by
  have hsorted : r.languages.Pairwise (· ≤ ·) := by
    simpa only [languages, decide_eq_true_eq] using
      @List.pairwise_mergeSort String (fun a b => decide (a ≤ b))
        (fun a b c hab hbc => by simpa using le_trans (by simpa using hab) (by simpa using hbc))
        (fun a b => by simpa using le_total a b) (r.entries.map (·.1))
  have hnodup : r.languages.Nodup := (List.mergeSort_perm _ _).nodup_iff.mpr h
  exact (hsorted.and hnodup).imp fun h => lt_of_le_of_ne h.1 h.2

theorem mem_languages_iff : key ∈ r.languages ↔ ∃ p, r.entries.lookup key = some p := by
  rw [languages, List.mem_mergeSort, exists_lookup_iff]

inductive Answers (fallback : π) (history : History π) : Request π → Reply π → Prop
  | register (language : String) (p : π) : Answers fallback history (.register language p) .done
  | unregister (language : String) : Answers fallback history (.unregister language) .done
  | has {language : String} {b : Bool}
      (h : b = true ↔ ∃ p, Held history (Language.canonical language) p) :
      Answers fallback history (.has language) (.has b)
  | parser {language : String} {check : π → Except Fault Bool} {p : π}
      (held : Held history (Language.canonical language) p) (available : check p = .ok true) :
      Answers fallback history (.get language check) (.parser p)
  | fallback {language : String} {check : π → Except Fault Bool}
      (h : ∀ p, Held history (Language.canonical language) p → check p ≠ .ok true) :
      Answers fallback history (.get language check) (.parser fallback)
  | languages {names : List String} (sorted : names.Pairwise (· < ·))
      (mem_iff : ∀ key, key ∈ names ↔ ∃ p, Held history key p) :
      Answers fallback history .languages (.languages names)

theorem answers_get (fallback : π) (history : History π) (language : String)
    (check : π → Except Fault Bool) :
    Answers fallback history (.get language check)
      (.parser ((registryAfter fallback history).get check language)) := by
  have hlookup := lookup_registryAfter fallback history (Language.canonical language)
  rw [get, registered?]
  cases hheld : (registryAfter fallback history).entries.lookup (Language.canonical language) with
  | none =>
      have hfallback : Answers fallback history (.get language check) (.parser fallback) := by
        refine .fallback fun p hp => ?_
        rw [← hlookup, hheld] at hp
        cases hp
      simpa using hfallback
  | some p =>
      have hp := (hlookup p).mp hheld
      have hother : check p ≠ .ok true →
          Answers fallback history (.get language check) (.parser fallback) := by
        intro hcheck
        refine .fallback fun q hq => ?_
        rw [← hlookup, hheld] at hq
        cases hq
        exact hcheck
      cases hcheck : check p with
      | error fault => simpa [hcheck] using hother (by simp [hcheck])
      | ok b =>
          cases b with
          | true => simpa [hcheck] using Answers.parser hp hcheck
          | false => simpa [hcheck] using hother (by simp [hcheck])

theorem answers_answer (fallback : π) (history : History π) (request : Request π) :
    Answers fallback history request ((registryAfter fallback history).answer request).1 := by
  have hlookup := lookup_registryAfter fallback history
  cases request with
  | register language p => exact .register language p
  | unregister language => exact .unregister language
  | has language =>
      refine .has ?_
      rw [has, registered?, Option.isSome_iff_exists]
      exact exists_congr fun p => hlookup _ p
  | get language check => exact answers_get fallback history language check
  | languages =>
      refine .languages (pairwise_languages (nodup_registryAfter fallback history)) fun key => ?_
      rw [mem_languages_iff]
      exact exists_congr fun p => hlookup key p

def under (key : String) (history : History π) : History π :=
  history.filter (·.key? == some key)

theorem held_under_iff : Held (under key history) key p ↔ Held history key p := by
  induction history with
  | nil => rfl
  | cons request before ih =>
      by_cases h : request.key? = some key
      · rw [under, List.filter_cons_of_pos (by simp [h]), held_cons_of_eq h, held_cons_of_eq h]
      · rw [under, List.filter_cons_of_neg (by simp [h]), held_cons_of_ne h]
        exact ih

theorem registered?_under (fallback : π) (history : History π) (language : String) :
    (registryAfter fallback (under (Language.canonical language) history)).registered? language =
      (registryAfter fallback history).registered? language := by
  apply Option.ext
  intro p
  rw [registered?, registered?, lookup_registryAfter, lookup_registryAfter, held_under_iff]

theorem last_writer_wins (fallback : π) (history : History π) :
    (∀ request, Answers fallback history request
      ((registryAfter fallback history).answer request).1) ∧
    ∀ language,
      (registryAfter fallback (under (Language.canonical language) history)).has language =
        (registryAfter fallback history).has language ∧
      ∀ check, (registryAfter fallback (under (Language.canonical language) history)).get check language =
        (registryAfter fallback history).get check language := by
  refine ⟨answers_answer fallback history, fun language => ⟨?_, fun check => ?_⟩⟩
  · rw [has, has, registered?_under]
  · rw [get, get, registered?_under, fallback_registryAfter, fallback_registryAfter]

example : let r := registryAfter "fallback" [.register " PY\n" "second", .register "python" "first"]
    r.get (fun _ => .ok true) "Py" = "second" ∧ r.languages = ["python"] := by
  decide +kernel

end Registry

end Chunkwise
