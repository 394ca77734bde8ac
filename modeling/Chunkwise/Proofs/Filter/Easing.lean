import Chunkwise.Proofs.Filter.Breakdown
import Mathlib.Algebra.Order.Ring.Unbundled.Rat

namespace Chunkwise

def Gate.Before (g k : Gate) : Prop :=
  [g, k].Sublist Gate.all

namespace FilterOptions

variable {o o' : FilterOptions} {g k : Gate} {c : Candidate}

def switchOff (o : FilterOptions) : Gate → FilterOptions
  | .tests => { o with excludeTests := false }
  | .generated => { o with excludeGenerated := false }
  | .deprecated => { o with excludeDeprecated := false }
  | .lowQuality => { o with excludeLowQuality := false }
  | .customPatterns => { o with customPatterns := [] }

inductive Eases (o : FilterOptions) : Gate → FilterOptions → Prop
  | off (g : Gate) : Eases o g (o.switchOff g)
  | patterns {ps : List String} (h : ps.Sublist o.customPatterns) :
      Eases o .customPatterns { o with customPatterns := ps }
  | threshold {q : Rat} (h : q ≤ o.minQuality) : Eases o .lowQuality { o with minQuality := q }

theorem not_rejects_switchOff (o : FilterOptions) (c : Candidate) (g : Gate) :
    ¬ (o.switchOff g).Rejects c g := by
  cases g with
  | tests | generated | deprecated | lowQuality => exact fun h => Bool.false_ne_true h.1
  | customPatterns => exact fun h => Bool.false_ne_true h.2

theorem isClosed_switchOff (hne : k ≠ g) : (o.switchOff g).isClosed k = o.isClosed k := by
  cases g <;> cases k <;> first | exact absurd rfl hne | rfl

theorem concerns_switchOff (hne : k ≠ g) : (o.switchOff g).concerns c k = o.concerns c k := by
  cases g <;> cases k <;> first | exact absurd rfl hne | rfl

theorem rejects_of_patterns {ps : List String} (h : ps.Sublist o.customPatterns)
    (hr : Rejects { o with customPatterns := ps } c .customPatterns) : o.Rejects c .customPatterns := by
  obtain ⟨p, hp, hoccurs⟩ := List.any_eq_true.mp hr.2
  exact ⟨rfl, List.any_eq_true.mpr ⟨p, h.subset hp, hoccurs⟩⟩

theorem rejects_of_threshold {q : Rat} (h : q ≤ o.minQuality)
    (hr : Rejects { o with minQuality := q } c .lowQuality) : o.Rejects c .lowQuality := by
  have hless : Quality.score c.text < q := of_decide_eq_true hr.2
  exact ⟨hr.1, decide_eq_true (lt_of_lt_of_le hless h)⟩

namespace Eases

variable (h : o.Eases g o')

include h

theorem rejects_iff (hne : k ≠ g) : o'.Rejects c k ↔ o.Rejects c k := by
  cases h with
  | off g => rw [Rejects, Rejects, isClosed_switchOff hne, concerns_switchOff hne]
  | patterns _ | threshold _ => cases k <;> first | exact absurd rfl hne | exact Iff.rfl

theorem rejects (hr : o'.Rejects c k) : o.Rejects c k := by
  by_cases hk : k = g
  · subst hk
    cases h with
    | off g => exact absurd hr (not_rejects_switchOff o c k)
    | patterns hsub => exact rejects_of_patterns hsub hr
    | threshold hle => exact rejects_of_threshold hle hr
  · exact (h.rejects_iff hk).mp hr

theorem classify_eq (hother : o.classify c ≠ some g) : o'.classify c = o.classify c := by
  cases hc : o.classify c with
  | none =>
    rw [classify_eq_none_iff] at hc ⊢
    intro k hr
    exact hc k (h.rejects hr)
  | some k =>
    have hne : k ≠ g := fun heq => hother (hc.trans (congrArg some heq))
    rw [classify_eq_some_iff] at hc ⊢
    obtain ⟨hrejects, before, after, hall, hbefore⟩ := hc
    exact ⟨(h.rejects_iff hne).mpr hrejects, before, after, hall,
      fun k hk hr => hbefore k hk (h.rejects hr)⟩

theorem before_or_eq (hc : o.classify c = some g) (hc' : o'.classify c = some k) : g.Before k ∨ k = g := by
  obtain ⟨-, before, after, hall, hbefore⟩ := classify_eq_some_iff.mp hc
  obtain ⟨hrejects, _, _, hall', -⟩ := classify_eq_some_iff.mp hc'
  have hmem : k ∈ Gate.all := hall' ▸ List.mem_append_right _ List.mem_cons_self
  rw [hall, List.mem_append, List.mem_cons] at hmem
  rcases hmem with hmem | heq | hmem
  · exact absurd (h.rejects hrejects) (hbefore k hmem)
  · exact .inr heq
  · refine .inl ?_
    rw [Gate.Before, hall]
    exact ((List.singleton_sublist.mpr hmem).cons_cons g).trans (List.sublist_append_right before _)

theorem kept_sublist (cs : List Candidate) : (o.filter cs).kept.Sublist (o'.filter cs).kept := by
  rw [kept_filter, kept_filter]
  apply List.monotone_filter_right
  intro c hc
  have hnone := of_decide_eq_true hc
  apply decide_eq_true
  rw [h.classify_eq (by simp [hnone]), hnone]

end Eases

theorem easing_spares_others (h : o.Eases g o') (c : Candidate) (cs : List Candidate) :
    (o.classify c ≠ some g → o'.classify c = o.classify c) ∧
    (o.classify c = some g →
      o'.classify c = none ∨ (∃ k, g.Before k ∧ o'.classify c = some k) ∨
        (o' ≠ o.switchOff g ∧ o'.classify c = some g)) ∧
    (o.filter cs).kept.Sublist (o'.filter cs).kept := by
  refine ⟨h.classify_eq, ?_, h.kept_sublist cs⟩
  intro hc
  cases hc' : o'.classify c with
  | none => exact .inl rfl
  | some k =>
    rcases h.before_or_eq hc hc' with hbefore | rfl
    · exact .inr (.inl ⟨k, hbefore, rfl⟩)
    · refine .inr (.inr ⟨?_, rfl⟩)
      rintro rfl
      exact not_rejects_switchOff o c k (classify_eq_some_iff.mp hc').1

def typescriptLeftOut : FilterOptions where
  customPatterns := ["*.ts"]

def testInTypescript : Candidate where
  path := "a.test.ts"
  text := []

theorem easing_spares_others_testInTypescript :
    typescriptLeftOut.classify testInTypescript = some .tests ∧
      (typescriptLeftOut.switchOff .tests).classify testInTypescript = some .customPatterns ∧
      Gate.Before .tests .customPatterns ∧
      (typescriptLeftOut.filter [testInTypescript, { path := "b.c", text := [] }]).kept.Sublist
        ((typescriptLeftOut.switchOff .tests).filter [testInTypescript, { path := "b.c", text := [] }]).kept := by
  obtain ⟨-, hcredited, hkept⟩ := easing_spares_others (.off .tests) testInTypescript
    [testInTypescript, { path := "b.c", text := [] }] (o := typescriptLeftOut)
  have hbefore : typescriptLeftOut.classify testInTypescript = some .tests := by decide
  have hafter : (typescriptLeftOut.switchOff .tests).classify testInTypescript = some .customPatterns := by
    decide
  refine ⟨hbefore, hafter, ?_, hkept⟩
  rcases hcredited hbefore with hnone | ⟨k, hk, heq⟩ | ⟨-, heq⟩
  · simp [hafter] at hnone
  · obtain rfl : Gate.customPatterns = k := by simpa [hafter] using heq
    exact hk
  · simp [hafter] at heq

end FilterOptions

end Chunkwise
