import Chunkwise.Filter.Gate

namespace Chunkwise

structure Breakdown where
  tests : Nat := 0
  generated : Nat := 0
  deprecated : Nat := 0
  lowQuality : Nat := 0
  customPatterns : Nat := 0
  deriving DecidableEq

namespace Breakdown

def count (b : Breakdown) : Gate → Nat
  | .tests => b.tests
  | .generated => b.generated
  | .deprecated => b.deprecated
  | .lowQuality => b.lowQuality
  | .customPatterns => b.customPatterns

def ofCounts (f : Gate → Nat) : Breakdown where
  tests := f .tests
  generated := f .generated
  deprecated := f .deprecated
  lowQuality := f .lowQuality
  customPatterns := f .customPatterns

@[simp] theorem count_ofCounts (f : Gate → Nat) (g : Gate) : (ofCounts f).count g = f g := by
  cases g <;> rfl

def add (b : Breakdown) (g : Gate) : Breakdown :=
  ofCounts fun h => if h = g then b.count h + 1 else b.count h

def total (b : Breakdown) : Nat :=
  Gate.all.foldr (fun g n => b.count g + n) 0

theorem count_add (b : Breakdown) (g h : Gate) :
    (b.add g).count h = if h = g then b.count h + 1 else b.count h := by
  simp [add]

def fields (b : Breakdown) : Fields :=
  Gate.all.map fun g => (g.label, .nat (b.count g))

end Breakdown

structure FilterResult where
  kept : List Candidate
  filteredCount : Nat
  breakdown : Breakdown

structure Sieve where
  kept : List Candidate := []
  breakdown : Breakdown := {}

def Sieve.step (o : FilterOptions) (s : Sieve) (c : Candidate) : Sieve :=
  match o.classify c with
  | none => { s with kept := c :: s.kept }
  | some g => { s with breakdown := s.breakdown.add g }

def FilterOptions.filter (o : FilterOptions) (candidates : List Candidate) : FilterResult :=
  let s := candidates.foldl (Sieve.step o) {}
  ⟨s.kept.reverse, candidates.length - s.kept.length, s.breakdown⟩

end Chunkwise
