import Chunkwise.Filter.Glob
import Chunkwise.Filter.Marks
import Chunkwise.Filter.Quality

namespace Chunkwise

inductive Gate where
  | tests
  | generated
  | deprecated
  | lowQuality
  | customPatterns
  deriving DecidableEq, Repr

namespace Gate

def all : List Gate :=
  [tests, generated, deprecated, lowQuality, customPatterns]

def label : Gate → String
  | tests => "tests"
  | generated => "generated"
  | deprecated => "deprecated"
  | lowQuality => "low_quality"
  | customPatterns => "custom_patterns"

end Gate

structure FilterOptions where
  excludeTests : Bool := true
  excludeGenerated : Bool := true
  excludeDeprecated : Bool := true
  excludeLowQuality : Bool := false
  customPatterns : List String := []
  minQuality : Rat := 1 / 2

namespace FilterOptions

def isClosed (o : FilterOptions) : Gate → Bool
  | .tests => o.excludeTests
  | .generated => o.excludeGenerated
  | .deprecated => o.excludeDeprecated
  | .lowQuality => o.excludeLowQuality
  | .customPatterns => true

def concerns (o : FilterOptions) (c : Candidate) : Gate → Bool
  | .tests => Marks.isTest c
  | .generated => Marks.isGenerated c
  | .deprecated => Marks.isDeprecated c
  | .lowQuality => Quality.score c.text < o.minQuality
  | .customPatterns => o.customPatterns.any fun g => Glob.occursIn g.toList c.rootedPath

def classify (o : FilterOptions) (c : Candidate) : Option Gate :=
  Gate.all.find? fun g => o.isClosed g && o.concerns c g

end FilterOptions

end Chunkwise
