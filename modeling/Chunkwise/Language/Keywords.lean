namespace Chunkwise

structure Keywords where
  declarations : List String
  control : List String
  modifiers : List String

namespace Keywords

def general : Keywords where
  declarations := ["function", "class", "interface", "type", "const", "let", "var", "def", "func", "fn"]
  control := ["if", "else", "for", "while", "switch", "case", "return", "break", "continue"]
  modifiers := ["public", "private", "protected", "static", "async", "export", "import"]

def typescript : Keywords where
  declarations := ["function", "class", "interface", "type", "const", "let", "var", "enum"]
  control := ["if", "else", "for", "while", "switch", "case", "return", "break", "continue", "throw",
    "try", "catch"]
  modifiers := ["public", "private", "protected", "static", "async", "export", "import", "readonly",
    "abstract"]

def python : Keywords where
  declarations := ["def", "class", "lambda"]
  control := ["if", "elif", "else", "for", "while", "return", "break", "continue", "raise", "try",
    "except", "with", "yield"]
  modifiers := ["async", "await", "import", "from", "global", "nonlocal"]

def go : Keywords where
  declarations := ["func", "type", "struct", "interface", "var", "const"]
  control := ["if", "else", "for", "switch", "case", "return", "break", "continue", "goto", "defer",
    "select"]
  modifiers := ["import", "package", "go", "chan"]

def csharp : Keywords where
  declarations := ["class", "interface", "struct", "enum", "delegate", "void", "var"]
  control := ["if", "else", "for", "foreach", "while", "do", "switch", "case", "return", "break",
    "continue", "throw", "try", "catch"]
  modifiers := ["public", "private", "protected", "internal", "static", "async", "virtual", "override",
    "abstract", "sealed", "using", "namespace"]

def rust : Keywords where
  declarations := ["fn", "struct", "enum", "trait", "impl", "type", "let", "const", "static"]
  control := ["if", "else", "match", "for", "while", "loop", "return", "break", "continue"]
  modifiers := ["pub", "async", "await", "use", "mod", "crate", "mut", "ref"]

def java : Keywords where
  declarations := ["class", "interface", "enum", "void", "var"]
  control := ["if", "else", "for", "while", "do", "switch", "case", "return", "break", "continue",
    "throw", "try", "catch"]
  modifiers := ["public", "private", "protected", "static", "final", "abstract", "synchronized",
    "volatile", "import", "package"]

def table : List (String × Keywords) := [
  ("typescript", typescript),
  ("javascript", typescript),
  ("jsx", typescript),
  ("tsx", typescript),
  ("python", python),
  ("go", go),
  ("csharp", csharp),
  ("rust", rust),
  ("java", java)]

def ofLanguage (name : String) : Keywords :=
  (table.lookup name).getD general

end Keywords

end Chunkwise
