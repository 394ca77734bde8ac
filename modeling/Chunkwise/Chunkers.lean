import Chunkwise.Strategy

namespace Chunkwise

structure Chunkers where
  parsers : Parsers
  made : List (Profile × BoundaryChunker)
  made_for : ∀ e ∈ made, e.2 = ⟨e.1.language, parsers⟩

namespace Chunkers

def new (parsers : Parsers) : Chunkers :=
  ⟨parsers, [], List.forall_mem_nil _⟩

def forProfile (k : Chunkers) (p : Profile) : BoundaryChunker × Chunkers :=
  match k.made.lookup p with
  | some c => (c, k)
  | none =>
      let c : BoundaryChunker := ⟨p.language, k.parsers⟩
      (c, { parsers := k.parsers
            made := (p, c) :: k.made
            made_for := List.forall_mem_cons.mpr ⟨rfl, k.made_for⟩ })

def feed (k : Chunkers) (source : Source) (o : Options) : Strategy → Feed × Chunkers
  | .boundaries p =>
      let (c, k) := k.forProfile p
      (c.chunkSource source o BoundaryChunker.maxParsedSize, k)
  | strategy => (strategy.feed k.parsers source o, k)

end Chunkers

end Chunkwise
