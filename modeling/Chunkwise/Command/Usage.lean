import Chunkwise.Command.Request

namespace Chunkwise

def usage : String :=
  "usage: chunkwise [-h] [--max-lines N] [--min-lines N] [--overlap N] [--filter] [--low-quality]\n" ++
  "                 [--exclude GLOB] [--json] [-v] PATH [PATH ...]"

def Misuse.message : Misuse → String
  | .ambiguous word => s!"{word} could mean more than one option"
  | .unexpectedValue word => s!"{word}: this option takes no value"
  | .missingValue s => s!"--{(Switch.setting s).name} wants a value"
  | .notInteger s value => s!"--{(Switch.setting s).name} wants an integer, not {value}"
  | .noPaths => "there is no path to chunk"
  | .notUnderstood words => "not understood: " ++ String.intercalate " " words

def Stop.message : Stop → String
  | .helpWanted => usage
  | .misuse cause => usage ++ "\n" ++ cause.message

end Chunkwise
