import Chunkwise.Text.Blank
import Chunkwise.Text.LowerCase

namespace Chunkwise

namespace Language

def aliases : List (String × String) := [
  ("py", "python"),
  ("js", "javascript"),
  ("ts", "typescript"),
  ("golang", "go"),
  ("rs", "rust"),
  ("c++", "cpp"),
  ("cs", "csharp"),
  ("c#", "csharp")]

def resolveAlias (name : String) : String :=
  (aliases.lookup name).getD name

def canonical (name : String) : String :=
  resolveAlias (String.ofList (Text.toLower (Text.trim name.toList)))

end Language

end Chunkwise
