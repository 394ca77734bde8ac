import Chunkwise.Filter.Basic
import Mathlib.Data.List.Basic

namespace Chunkwise

variable {o : FilterOptions} {c : Candidate} {cs ds : List Candidate} {g : Gate}

namespace FilterOptions

def Rejects (o : FilterOptions) (c : Candidate) (g : Gate) : Prop :=
  o.isClosed g = true ∧ o.concerns c g = true

def FirstToReject (o : FilterOptions) (c : Candidate) (g : Gate) : Prop :=
  o.Rejects c g ∧ ∃ before after, Gate.all = before ++ g :: after ∧ ∀ h ∈ before, ¬ o.Rejects c h

theorem classify_eq_some_iff : o.classify c = some g ↔ o.FirstToReject c g := by
  simp [classify, List.find?_eq_some_iff_append, FirstToReject, Rejects, imp_iff_not_or]

theorem classify_eq_none_iff : o.classify c = none ↔ ∀ g, ¬ o.Rejects c g := by
  have hall : ∀ g, g ∈ Gate.all := by
    intro g
    cases g <;> decide
  simp [classify, List.find?_eq_none, Rejects, hall]

instance (o : FilterOptions) (c : Candidate) (g : Gate) : Decidable (o.FirstToReject c g) :=
  decidable_of_iff _ classify_eq_some_iff

end FilterOptions

namespace Breakdown

variable {b b' : Breakdown}

theorem eq_of_count (h : ∀ g, b.count g = b'.count g) : b = b' := by
  cases b
  cases b'
  congr
  · exact h .tests
  · exact h .generated
  · exact h .deprecated
  · exact h .lowQuality
  · exact h .customPatterns

theorem total_eq (b : Breakdown) :
    b.total = b.tests + b.generated + b.deprecated + b.lowQuality + b.customPatterns := by
  simp only [total, Gate.all, List.foldr_cons, List.foldr_nil, count]
  omega

theorem total_add (b : Breakdown) (g : Gate) : (b.add g).total = b.total + 1 := by
  rw [total_eq, total_eq]
  cases g <;> simp only [add, ofCounts, count, reduceCtorEq, if_true, if_false] <;> omega

end Breakdown

namespace Sieve

theorem kept_step (o : FilterOptions) (s : Sieve) (c : Candidate) :
    (s.step o c).kept = if o.classify c = none then c :: s.kept else s.kept := by
  rw [step]
  cases o.classify c with
  | none => rfl
  | some g => rfl

theorem count_step (o : FilterOptions) (s : Sieve) (c : Candidate) (g : Gate) :
    (s.step o c).breakdown.count g =
      s.breakdown.count g + if o.classify c = some g then 1 else 0 := by
  rw [step]
  cases o.classify c with
  | none => simp
  | some h =>
      simp only [Breakdown.count_add, Option.some.injEq, eq_comm]
      split
      · rfl
      · rfl

theorem size_step (o : FilterOptions) (s : Sieve) (c : Candidate) :
    (s.step o c).kept.length + (s.step o c).breakdown.total =
      s.kept.length + s.breakdown.total + 1 := by
  rw [step]
  cases o.classify c with
  | none => exact Nat.succ_add _ _
  | some g => exact congrArg (s.kept.length + ·) (Breakdown.total_add _ g)

theorem kept_foldl (o : FilterOptions) (cs : List Candidate) (s : Sieve) :
    (cs.foldl (step o) s).kept = (cs.filter fun c => o.classify c = none).reverse ++ s.kept := by
  induction cs generalizing s with
  | nil => rfl
  | cons c cs ih =>
      rw [List.foldl_cons, ih, kept_step]
      by_cases h : o.classify c = none
      · simp [h]
      · simp [h]

theorem count_foldl (o : FilterOptions) (cs : List Candidate) (s : Sieve) (g : Gate) :
    (cs.foldl (step o) s).breakdown.count g =
      s.breakdown.count g + cs.countP (o.FirstToReject · g) := by
  induction cs generalizing s with
  | nil => rfl
  | cons c cs ih =>
      rw [List.foldl_cons, ih, count_step, List.countP_cons]
      simp only [decide_eq_true_eq, FilterOptions.classify_eq_some_iff]
      omega

theorem size_foldl (o : FilterOptions) (cs : List Candidate) (s : Sieve) :
    (cs.foldl (step o) s).kept.length + (cs.foldl (step o) s).breakdown.total =
      s.kept.length + s.breakdown.total + cs.length := by
  induction cs generalizing s with
  | nil => rfl
  | cons c cs ih =>
      rw [List.foldl_cons, ih, size_step, List.length_cons]
      omega

end Sieve

namespace FilterOptions

theorem kept_filter (o : FilterOptions) (cs : List Candidate) :
    (o.filter cs).kept = cs.filter fun c => o.classify c = none := by
  simp [filter, Sieve.kept_foldl]

theorem count_filter (o : FilterOptions) (cs : List Candidate) (g : Gate) :
    (o.filter cs).breakdown.count g = cs.countP (o.FirstToReject · g) := by
  rw [filter, Sieve.count_foldl]
  cases g <;> exact Nat.zero_add _

theorem size_filter (o : FilterOptions) (cs : List Candidate) :
    (o.filter cs).kept.length + (o.filter cs).breakdown.total = cs.length := by
  have h := Sieve.size_foldl o cs {}
  rw [filter, List.length_reverse, h]
  exact Nat.zero_add _

theorem filteredCount_filter (o : FilterOptions) (cs : List Candidate) :
    (o.filter cs).filteredCount = (o.filter cs).breakdown.total := by
  have hcount : (o.filter cs).filteredCount = cs.length - (o.filter cs).kept.length := by simp [filter]
  have hsize := size_filter o cs
  omega

theorem filter_of_kept (h : ∀ c ∈ cs, o.classify c = none) : o.filter cs = ⟨cs, 0, {}⟩ := by
  have hkept : (o.filter cs).kept = cs := by
    rw [kept_filter]
    exact List.filter_eq_self.mpr fun c hc => decide_eq_true (h c hc)
  have htotal : (o.filter cs).breakdown.total = 0 := by
    have hsize := size_filter o cs
    rw [hkept] at hsize
    omega
  have hbreakdown : (o.filter cs).breakdown = {} := by
    apply Breakdown.eq_of_count
    intro g
    rw [Breakdown.total_eq] at htotal
    cases g <;> simp only [Breakdown.count] <;> omega
  calc o.filter cs
      = ⟨(o.filter cs).kept, (o.filter cs).filteredCount, (o.filter cs).breakdown⟩ := rfl
    _ = ⟨cs, 0, {}⟩ := by rw [filteredCount_filter, htotal, hkept, hbreakdown]

theorem filter_conserves (o : FilterOptions) (cs ds : List Candidate) :
    (o.filter cs).kept = cs.filter (fun c => o.classify c = none) ∧
    (∀ c, o.classify c = none ↔ ∀ g, ¬ o.Rejects c g) ∧
    (∀ c g, o.classify c = some g ↔ o.FirstToReject c g) ∧
    (o.filter cs).breakdown.fields =
      [("tests", .nat (cs.countP (o.FirstToReject · .tests))),
        ("generated", .nat (cs.countP (o.FirstToReject · .generated))),
        ("deprecated", .nat (cs.countP (o.FirstToReject · .deprecated))),
        ("low_quality", .nat (cs.countP (o.FirstToReject · .lowQuality))),
        ("custom_patterns", .nat (cs.countP (o.FirstToReject · .customPatterns)))] ∧
    (o.filter cs).filteredCount = (o.filter cs).breakdown.total ∧
    (o.filter cs).kept.length + (o.filter cs).filteredCount = cs.length ∧
    (o.filter (cs ++ ds)).kept = (o.filter cs).kept ++ (o.filter ds).kept ∧
    (∀ g, (o.filter (cs ++ ds)).breakdown.count g =
      (o.filter cs).breakdown.count g + (o.filter ds).breakdown.count g) ∧
    o.filter (o.filter cs).kept = ⟨(o.filter cs).kept, 0, {}⟩ := by
  refine ⟨kept_filter o cs, fun c => classify_eq_none_iff, fun c g => classify_eq_some_iff, ?_,
    filteredCount_filter o cs, ?_, ?_, fun g => ?_, ?_⟩
  · simp [Breakdown.fields, Gate.all, Gate.label, count_filter]
  · rw [filteredCount_filter, size_filter]
  · rw [kept_filter, kept_filter, kept_filter, List.filter_append]
  · rw [count_filter, count_filter, count_filter, List.countP_append]
  · apply filter_of_kept
    intro c hc
    rw [kept_filter, List.mem_filter] at hc
    exact of_decide_eq_true hc.2

end FilterOptions

end Chunkwise
