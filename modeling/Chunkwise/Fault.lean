namespace Chunkwise

inductive FileFault where
  | missing
  | isFolder
  | notFolder
  | unreadable
  | denied
  | tooLong
  deriving DecidableEq, Repr

inductive Fault where
  | invalidSpan (first last : Int)
  | unknownKind (label : String)
  | maxLinesNotPositive (maxLines : Int)
  | overlapOutsideLines (overlap maxLines : Int)
  | windowSizeNotPositive (size : Int)
  | overlapOutsideWindow (overlap : Int)
  | overlapNotBelowWindow (overlap size : Int)
  | textTooLong (path : String) (size limit : Nat)
  | divisionByZero
  | noSuchLine
  | gaveUp (message : String)
  | file (cause : FileFault)
  deriving DecidableEq, Repr

def kilobytes (size : Nat) : String :=
  let tenths := size * 10 / 1024
  let rest := size * 10 % 1024
  let rounded := if 512 < rest || (rest = 512 && tenths % 2 = 1) then tenths + 1 else tenths
  s!"{rounded / 10}.{rounded % 10}"

def FileFault.message : FileFault → String
  | .missing => "No such file or directory"
  | .isFolder => "Is a directory"
  | .notFolder => "Not a directory"
  | .unreadable => "[Errno 5] Input/output error"
  | .denied => "Permission denied"
  | .tooLong => "File name too long"

def Fault.leadsNowhere : Fault → Bool
  | .file .missing => true
  | .file .notFolder => true
  | _ => false

def Fault.message : Fault → String
  | .invalidSpan first last => s!"Invalid span: {first}-{last}"
  | .unknownKind label => s!"'{label}' is not a valid BoundaryKind"
  | .maxLinesNotPositive m => s!"max_lines must be positive, got {m}"
  | .overlapOutsideLines o m =>
      s!"overlap must be in [0, max_lines), got {o} with max_lines={m}"
  | .windowSizeNotPositive n => s!"window_size must be positive, got {n}"
  | .overlapOutsideWindow o => s!"overlap must be in [0, window_size), got {o}"
  | .overlapNotBelowWindow o n =>
      s!"window_overlap ({o}) must be smaller than window_size ({n})"
  | .textTooLong path size limit =>
      s!"File too large for in-memory chunking: {path} ({kilobytes size}KB > {limit / 1024}KB). Use chunk_stream() instead."
  | .divisionByZero => "division by zero"
  | .noSuchLine => "list index out of range"
  | .gaveUp message => message
  | .file cause => cause.message

end Chunkwise
