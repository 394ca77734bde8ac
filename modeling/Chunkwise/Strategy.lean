import Chunkwise.BoundaryChunks.Chunker
import Chunkwise.Declaration.Chunker
import Chunkwise.Files.Path
import Chunkwise.Language.Profile
import Chunkwise.Markdown.Chunker

namespace Chunkwise

inductive Strategy where
  | boundaries (profile : Profile)
  | declarations
  | markdown
  | lines
  deriving DecidableEq

namespace Strategy

open Pattern

def markdownExtensions : List String :=
  [".md", ".mdx", ".markdown"]

def markdownLanguages : List String :=
  ["markdown", "mdx"]

def declarationExtensions : List String :=
  [".ts", ".tsx", ".js", ".jsx", ".mts", ".cts", ".mjs", ".cjs"]

def declarationLanguages : List String :=
  ["typescript", "javascript", "tsx", "jsx"]

def braceExtensions : List String := [
  ".ts", ".tsx", ".js", ".jsx", ".mjs", ".cjs", ".mts", ".cts", ".java", ".cs", ".go", ".rs", ".c",
  ".h", ".cpp", ".cc", ".cxx", ".c++", ".hpp", ".hh", ".hxx"]

def boundaryLimit : Int := 100 * 1024

def structureLimit : Int := 500 * 1024

def identifier : Strategy → String
  | boundaries _ => "tree-sitter"
  | declarations => "regex"
  | markdown => "markdown"
  | lines => "line-based"

def memoryFactor : Strategy → Int
  | boundaries _ => 4
  | declarations => 3
  | markdown => 3
  | lines => 2

def isJoint (c : Char) : Bool :=
  c == '/' || c == '.' || c == '_' || c == '-'

def generatedPath : Pattern :=
  anyOf [
    chain [alt start (char '/'), literals ["dist", "build", "node_modules", "vendor"], char '/'],
    literal ".min.",
    literal ".bundle.",
    chain [alt start (one isJoint), literal "bundle.js", finish],
    chain [literal "vendor.js", finish]]

def isGeneratedPath (path : String) : Bool :=
  generatedPath.occursIn (Text.toLower (path.toList.map fun c => if c = '\\' then '/' else c))

def suffixOf (path : String) : String :=
  lowerCase (Path.ofString path).suffix

def isSupported (path : String) : Bool :=
  markdownExtensions.contains (suffixOf path) || (Profile.ofExtension? (suffixOf path)).isSome

def select (path : String) (size : Int) : Strategy :=
  let suffix := suffixOf path
  if markdownExtensions.contains suffix then markdown
  else if isGeneratedPath path || structureLimit < size then lines
  else match Profile.ofExtension? suffix with
    | none => lines
    | some profile =>
        if size ≤ boundaryLimit || !braceExtensions.contains suffix then boundaries profile
        else declarations

def memoryFor (path : String) (size : Int) : Int :=
  size * (select path size).memoryFactor

def supportedExtensions : List String :=
  markdownExtensions ++ Profile.all.flatMap (·.extensions)

def feed (parsers : Parsers) (source : Source) (o : Options) : Strategy → Feed
  | boundaries p =>
      BoundaryChunker.chunkSource ⟨p.language, parsers⟩ source o BoundaryChunker.maxParsedSize
  | declarations => DeclarationChunker.standard.chunkSource source o
  | markdown => Markdown.chunkSource source o Markdown.maxDocumentSize
  | lines => LineChunks.chunkSource source o

end Strategy

end Chunkwise
