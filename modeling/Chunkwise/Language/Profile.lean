import Chunkwise.Text.LowerCase

namespace Chunkwise

structure Profile where
  title : String
  language : String
  extensions : List String
  languages : List String
  deriving DecidableEq

namespace Profile

def python : Profile := ⟨"Python", "python", [".py", ".pyi"], ["python"]⟩

def javascript : Profile :=
  ⟨"JavaScript", "javascript", [".js", ".jsx", ".mjs", ".cjs"], ["javascript", "jsx"]⟩

def typescript : Profile := ⟨"TypeScript", "typescript", [".ts", ".mts", ".cts"], ["typescript"]⟩

def tsx : Profile := ⟨"TSX", "tsx", [".tsx"], ["tsx"]⟩

def go : Profile := ⟨"Go", "go", [".go"], ["go"]⟩

def rust : Profile := ⟨"Rust", "rust", [".rs"], ["rust"]⟩

def java : Profile := ⟨"Java", "java", [".java"], ["java"]⟩

def c : Profile := ⟨"C", "c", [".c", ".h"], ["c"]⟩

def cpp : Profile :=
  ⟨"Cpp", "cpp", [".cpp", ".cc", ".cxx", ".c++", ".hpp", ".hh", ".hxx"], ["cpp"]⟩

def csharp : Profile := ⟨"CSharp", "csharp", [".cs"], ["csharp"]⟩

def all : List Profile :=
  [python, javascript, typescript, tsx, go, rust, java, c, cpp, csharp]

def ofExtension? (suffix : String) : Option Profile :=
  all.find? fun p => p.extensions.contains (lowerCase suffix)

def endsInAny (extensions : List String) (path : String) : Bool :=
  let path := lowerCase path
  extensions.any fun e => e.toList.isSuffixOf path.toList

end Profile

end Chunkwise
