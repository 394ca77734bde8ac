import Chunkwise.LineChunks

namespace Chunkwise

namespace Options

variable {o : Options} {m fallback : Int}

theorem one_le_maxLines (h : ∀ n, o.maxLines = some n → 1 ≤ n) (hfallback : 1 ≤ fallback) :
    1 ≤ o.maxLines.getD fallback := by
  cases hn : o.maxLines with
  | none => exact hfallback
  | some n => exact h n hn

theorem overlap_bounds (h : ∀ n, o.overlap = some n → 0 ≤ n ∧ n < m)
    (hfallback : 0 ≤ fallback ∧ fallback < m) :
    0 ≤ o.overlap.getD fallback ∧ o.overlap.getD fallback < m := by
  cases hn : o.overlap with
  | none => exact hfallback
  | some n => exact h n hn

structure IsValid (o : Options) : Prop where
  maxLines : ∀ n, o.maxLines = some n → 1 ≤ n
  overlap : ∀ n, o.overlap = some n → 0 ≤ n ∧ n < LineChunks.maxLines o

namespace IsValid

theorem width (h : o.IsValid) (hfallback : LineChunks.defaultMaxLines ≤ fallback) :
    1 ≤ o.maxLines.getD fallback ∧ LineChunks.maxLines o ≤ o.maxLines.getD fallback := by
  rw [LineChunks.maxLines]
  rw [LineChunks.defaultMaxLines] at hfallback ⊢
  refine ⟨one_le_maxLines h.maxLines (by omega), ?_⟩
  cases o.maxLines with
  | none => exact hfallback
  | some n => exact Int.le_refl n

theorem overlap_getD (h : o.IsValid) (hm : LineChunks.maxLines o ≤ m)
    (hfallback : 0 ≤ fallback ∧ fallback < m) :
    0 ≤ o.overlap.getD fallback ∧ o.overlap.getD fallback < m :=
  overlap_bounds (fun n hn => ⟨(h.overlap n hn).1, Int.lt_of_lt_of_le (h.overlap n hn).2 hm⟩) hfallback

end IsValid

end Options

end Chunkwise
