import Chunkwise.Command.Word
import Chunkwise.Options
import Chunkwise.Text.Integer

namespace Chunkwise

structure Request where
  paths : List String := []
  options : Options := {}
  filters : Bool := false
  excludesLowQuality : Bool := false
  excluded : List String := []
  asJson : Bool := false
  isVerbose : Bool := false

inductive Stop where
  | helpWanted
  | misuse (cause : Misuse)
  deriving DecidableEq, Repr

namespace Request

def raise (r : Request) : Flag → Except Stop Request
  | .help => .error .helpWanted
  | .filter => .ok { r with filters := true }
  | .lowQuality => .ok { r with excludesLowQuality := true }
  | .json => .ok { r with asJson := true }
  | .verbose => .ok { r with isVerbose := true }

def integer (s : Setting) (value : String) : Except Stop Int :=
  match Integer.read value.toList with
  | some n => .ok n
  | none => .error (.misuse (.notInteger s value))

def assign (r : Request) (s : Setting) (value : String) : Except Stop Request :=
  match s with
  | .maxLines => return { r with options.maxLines := some (← integer s value) }
  | .minLines => return { r with options.minLines := some (← integer s value) }
  | .overlap => return { r with options.overlap := some (← integer s value) }
  | .exclude => .ok { r with excluded := r.excluded ++ [value] }

end Request

inductive Stage where
  | before
  | within
  | after
  deriving DecidableEq, Repr

structure Reading where
  request : Request := {}
  stage : Stage := .before
  strays : List String := []

namespace Reading

def addStray (r : Reading) (word : String) : Reading :=
  { r with strays := r.strays ++ [word] }

def addPlain (r : Reading) (word : String) : Reading :=
  if r.stage = .after then r.addStray word
  else { r with stage := .within, request.paths := r.request.paths ++ [word] }

def endRun (r : Reading) : Reading :=
  { r with stage := if r.stage = .before then .before else .after }

def raise (r : Reading) (f : Flag) : Except Stop Reading :=
  return { r with request := ← r.request.raise f }

def raiseLetters (r : Reading) (t : Text) : Except Stop Reading := do
  let flags ← (Word.flagsOf t).mapError .misuse
  flags.foldlM raise r

def assign (r : Reading) (s : Setting) (value : String) : Except Stop Reading :=
  return { r with request := ← r.request.assign s value }

def readWords (r : Reading) : List Word → Except Stop Reading
  | [] => .ok r
  | .plain word :: words => readWords (r.addPlain word) words
  | .separator :: words => readWords (if r.stage = .after then r.addStray "--" else r) words
  | .unknown word :: words => readWords (r.endRun.addStray word) words
  | .flag f :: words => do readWords (← r.endRun.raise f) words
  | .valuedFlag word :: _ => .error (.misuse (.unexpectedValue word))
  | .letters t :: words => do readWords (← r.endRun.raiseLetters t) words
  | .setting s (some value) :: words => do readWords (← r.endRun.assign s value) words
  | .setting s none :: .plain value :: words => do readWords (← r.endRun.assign s value) words
  | .setting s none :: _ => .error (.misuse (.missingValue s))

def finish (r : Reading) : Except Stop Request :=
  if r.request.paths.isEmpty then .error (.misuse .noPaths)
  else if r.strays.isEmpty then .ok r.request
  else .error (.misuse (.notUnderstood r.strays))

end Reading

/-- The request that a command line makes. The form of every word is looked at before any switch takes
effect, so that an ambiguous name is misuse even behind a call for help. -/
def Request.ofArguments (arguments : List String) : Except Stop Request := do
  let words ← (Word.ofStrings arguments).mapError .misuse
  (← Reading.readWords {} words).finish

end Chunkwise
