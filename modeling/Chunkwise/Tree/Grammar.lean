import Chunkwise.Parser
import Chunkwise.Tree.Boundaries
import Chunkwise.Tree.Outline

namespace Chunkwise

namespace Grammar

structure Binding where
  module : String
  factory : String

def bindings : List (String × Binding) := [
  ("python", ⟨"tree_sitter_python", "language"⟩),
  ("javascript", ⟨"tree_sitter_javascript", "language"⟩),
  ("jsx", ⟨"tree_sitter_javascript", "language"⟩),
  ("typescript", ⟨"tree_sitter_typescript", "language_typescript"⟩),
  ("tsx", ⟨"tree_sitter_typescript", "language_tsx"⟩),
  ("go", ⟨"tree_sitter_go", "language"⟩),
  ("rust", ⟨"tree_sitter_rust", "language"⟩),
  ("java", ⟨"tree_sitter_java", "language"⟩),
  ("c", ⟨"tree_sitter_c", "language"⟩),
  ("cpp", ⟨"tree_sitter_cpp", "language"⟩),
  ("csharp", ⟨"tree_sitter_c_sharp", "language"⟩)]

structure Handle where
  backend : Except String (Text → Option Node)

abbrev Modules := List (String × List (String × Except String Handle))

inductive Status where
  | unloaded
  | available
  | unavailable (reason : String)
  deriving DecidableEq

def Status.isAvailable : Status → Bool
  | available => true
  | _ => false

structure Catalogue where
  bindings : List (String × Binding)
  modules : Modules

structure Lookup where
  result : Except String Handle
  opened : Option String

def Catalogue.find (c : Catalogue) (language : String) : Lookup :=
  match c.bindings.lookup language with
  | none => ⟨.error s!"No tree-sitter grammar registered for {language}", none⟩
  | some b =>
      ⟨match c.modules.lookup b.module with
        | none => .error s!"{b.module} not installed"
        | some factories =>
            match factories.lookup b.factory with
            | none => .error
                s!"Failed to load grammar {b.module}: module '{b.module}' has no attribute '{b.factory}'"
            | some (.error message) => .error s!"Failed to load grammar {b.module}: {message}"
            | some (.ok handle) => .ok handle,
        some b.module⟩

structure Cache where
  known : List (String × Except String Handle) := []
  opened : Array String := #[]

def Cache.load (c : Catalogue) (cache : Cache) (language : String) : Except String Handle × Cache :=
  match cache.known.lookup language with
  | some result => (result, cache)
  | none =>
      let found := c.find language
      (found.result,
        { known := (language, found.result) :: cache.known
          opened := match found.opened with
            | none => cache.opened
            | some name => cache.opened.push name })

def statusOf : Except String Handle → Status
  | .ok _ => .available
  | .error reason => .unavailable reason

structure LazyParser where
  language : String
  backend : Option (Except String (Text → Option Node)) := none

namespace LazyParser

def new (language : String) : LazyParser :=
  { language := Language.canonical language }

def status (p : LazyParser) : Status :=
  match p.backend with
  | none => .unloaded
  | some (.ok _) => .available
  | some (.error reason) => .unavailable reason

def ensure (c : Catalogue) (cache : Cache) (p : LazyParser) : LazyParser × Cache :=
  match p.backend with
  | some _ => (p, cache)
  | none =>
      let (result, cache) := cache.load c p.language
      ({ p with backend := some (result.bind Handle.backend) }, cache)

def tree? (p : LazyParser) (t : Text) : Option Node :=
  match p.backend with
  | some (.ok parse) => parse t
  | _ => none

def boundaries (p : LazyParser) (t : Text) : List Boundary :=
  match p.tree? t with
  | none => []
  | some root => root.boundaries (Utf8.encode t)

def outline (p : LazyParser) (t : Text) : Outline :=
  match p.tree? t with
  | none => {}
  | some root => root.outline (Utf8.encode t)

def parser (p : LazyParser) : Parser where
  available := .ok p.status.isAvailable
  boundaries t := .ok (p.boundaries t)

end LazyParser

inductive Request where
  | load (language : String)
  | new (parser language : String)
  | available (parser : String)
  | status (parser : String)
  | boundaries (parser : String) (code : Text)
  | outline (parser : String) (code : Text)

inductive Reply where
  | status (s : Status)
  | language (name : String)
  | available (b : Bool)
  | boundaries (bs : List Boundary)
  | outline (o : Outline)

structure Session where
  cache : Cache := {}
  parsers : List (String × LazyParser) := []

namespace Session

def parser (s : Session) (name : String) : LazyParser :=
  (s.parsers.lookup name).getD (LazyParser.new name)

def put (s : Session) (name : String) (p : LazyParser) (cache : Cache) : Session :=
  ⟨cache, (name, p) :: s.parsers.filter (·.1 != name)⟩

def loaded (c : Catalogue) (s : Session) (name : String) : LazyParser × Session :=
  let (p, cache) := (s.parser name).ensure c s.cache
  (p, s.put name p cache)

def answer (c : Catalogue) (s : Session) : Request → Reply × Session
  | .load language =>
      let (result, cache) := s.cache.load c language
      (.status (statusOf result), { s with cache })
  | .new name language =>
      let p := LazyParser.new language
      (.language p.language, s.put name p s.cache)
  | .status name => (.status (s.parser name).status, s)
  | .available name =>
      let (p, s) := s.loaded c name
      (.available p.status.isAvailable, s)
  | .boundaries name code =>
      let (p, s) := s.loaded c name
      (.boundaries (p.boundaries code), s)
  | .outline name code =>
      let (p, s) := s.loaded c name
      (.outline (p.outline code), s)

end Session

end Grammar

end Chunkwise
