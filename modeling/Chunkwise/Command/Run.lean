import Chunkwise.Command.Report
import Chunkwise.Command.Request
import Chunkwise.Files.Chunks
import Chunkwise.Filter.Basic

namespace Chunkwise

inductive Level where
  | info
  | error
  deriving DecidableEq, Repr

def Level.label : Level → String
  | info => "INFO"
  | error => "ERROR"

structure Message where
  level : Level
  text : String
  deriving DecidableEq, Repr

structure Outcome where
  exitCode : Nat
  lines : List String
  log : List Message
  deriving DecidableEq

def Outcome.text (o : Outcome) : Text :=
  o.lines.flatMap fun line => line.toList ++ ['\n']

namespace Place

def ofPath (current : Place) (path : String) : Place :=
  let p := Path.ofString path
  p.names.foldl (fun place name => if name = ".." then place.dropLast else place ++ [name])
    (if p.isAbsolute then [] else current)

def path (place : Place) : String :=
  Path.toString ⟨"/", place⟩

def shown (current place : Place) : String :=
  if current.isPrefixOf place then Path.toString ⟨"", place.drop current.length⟩ else place.path

end Place

namespace Request

def chunkPlace (tree : FileTree) (current : Place) (o : Options) (k : Chunkers) (place : Place) :
    Except Fault (List (String × List Chunk) × Chunkers) :=
  match tree.at? place with
  | some .folder => k.chunkFolder tree current o [] place.path
  | _ =>
      let (chunks, k) := k.chunkFile tree current o place.path
      chunks.map fun chunks => ([(place.path, chunks)], k)

def putAll (current : Place) (r : Report) (files : List (String × List Chunk)) : Report :=
  files.foldl (fun r (path, chunks) =>
    r.put (Place.shown current (Path.ofString path).names) chunks) r

def addPlace (tree : FileTree) (current : Place) (o : Options) (s : Report × Chunkers)
    (place : Place) : Except Fault (Report × Chunkers) := do
  let (files, k) ← chunkPlace tree current o s.2 place
  return (putAll current s.1 files, k)

def report (tree : FileTree) (current : Place) (parsers : Parsers) (o : Options)
    (places : List Place) : Except Fault Report :=
  (places.foldlM (addPlace tree current o) (Report.empty, Chunkers.new parsers)).map (·.1)

def filterOptions (r : Request) : FilterOptions where
  excludeLowQuality := r.excludesLowQuality
  customPatterns := r.excluded

def filterLog (r : Request) (report : Report) : List Message :=
  let candidates := report.chunks.map fun (path, c) => Candidate.ofChunk path c
  let result := r.filterOptions.filter candidates
  ⟨.info, s!"Kept {result.kept.length} of {candidates.length} chunks"⟩ ::
    Gate.all.map fun g => ⟨.info, s!"  {g.label}: {result.breakdown.count g}"⟩

def reportLog (r : Request) (report : Report) : List Message :=
  ⟨.info, s!"Generated {report.chunkCount} chunks from {report.files.length} files"⟩ ::
    if r.filters then r.filterLog report else []

def failure (causes : List String) : Outcome :=
  ⟨1, [], causes.map (⟨.error, ·⟩)⟩

def aborted : Outcome :=
  ⟨1, [], []⟩

def run (tree : FileTree) (current : Place) (parsers : Parsers) (r : Request) : Outcome :=
  let places := r.paths.map (Place.ofPath current)
  match places.mapM fun p => tree.find current p.path with
  | .error _ => aborted
  | .ok _ =>
      match places.filter fun p => (tree.at? p).isNone with
      | [] =>
          match report tree current parsers r.options places with
          | .ok report => ⟨0, report.lines r.asJson, r.reportLog report⟩
          | .error fault => failure [s!"Chunking failed: {fault.message}"]
      | missing => failure (missing.map fun p => s!"Path does not exist: {p.path}")

end Request

def Stop.exitCode : Stop → Nat
  | .helpWanted => 0
  | .misuse _ => 2

def runCommand (tree : FileTree) (current : Place) (arguments : List String) : Outcome :=
  match Request.ofArguments arguments with
  | .ok r => r.run tree current Parsers.none
  | .error stop => ⟨stop.exitCode, [], []⟩

end Chunkwise
