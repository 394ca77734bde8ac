import Chunkwise.Kind
import Chunkwise.Outline
import Chunkwise.Pattern.Basic

namespace Chunkwise

namespace Braces

open Pattern

def declarationStarts : List Pattern := [
  chain [optWord "export", optWord "async", literal "function", blanks],
  chain [optWord "export", optWord "default", literal "class", blanks],
  chain [optWord "export", literal "interface", blanks],
  chain [literals ["public", "private", "protected"], blanks, optWord "async",
    literals ["function", "class"]],
  chain [optWord "async", literal "def", blanks],
  chain [literal "func", blanks],
  chain [optWord "pub", literal "fn", blanks]]

def startsDeclaration (line : Text) : Bool :=
  declarationStarts.any fun p => (p.matchStart line).isSome

def named (keywords : List String) : Pattern :=
  chain [wordEdge, literals keywords, blanks, wordGroup]

def wholeWord (ws : List String) : Pattern :=
  chain [wordEdge, literals ws, wordEdge]

def declaredName : Pattern :=
  named ["function", "class", "interface", "type", "def", "func", "fn"]

def functionWord : Pattern :=
  wholeWord ["function", "def", "func", "fn"]

def classWord : Pattern :=
  wholeWord ["class"]

def nameOf (line : Text) : Option String :=
  (declaredName.search line).map fun m => String.ofList m.firstGroup

def kindOf (line : Text) : Kind :=
  if functionWord.occursIn line then .function
  else if classWord.occursIn line then .classLike
  else .statement

def functionHeader : Pattern :=
  seq (optWord "async") (named ["function", "def", "func", "fn"])

def classHeader : Pattern :=
  named ["class", "struct", "interface"]

def isQuote (c : Char) : Bool :=
  c == '\'' || c == '"'

def quotedSource : Pattern :=
  chain [wordEdge, literal "from", blanks, one isQuote, group (plus fun c => !isQuote c), one isQuote]

def plainSource : Pattern :=
  chain [literals ["from", "import", "using"], blanks, opt (one isQuote),
    group (plus fun c => !isQuote c && c != ';' && !isBlank c)]

def startsWithWord (word : String) (line : Text) : Bool :=
  (word.toList ++ [' ']).isPrefixOf line

def importSource (line : Text) : Option String :=
  if startsWithWord "import" line || startsWithWord "from" line || startsWithWord "using" line then
    ((quotedSource.search line).or (plainSource.search line)).map fun m =>
      String.ofList m.firstGroup
  else none

def exportHeader : Pattern :=
  chain [literal "export", blanks, optWord "default", optWord "async",
    opt (seq (literals ["const", "let", "var", "function", "class", "interface", "type", "enum"])
      blanks), wordGroup]

def exportKind (line : Text) : Outline.ExportKind :=
  if Text.occursIn "function".toList line then .function
  else if Text.occursIn "class".toList line then .classLike
  else if (wholeWord ["const", "let", "var"]).occursIn line then .constant
  else if (wholeWord ["type", "interface"]).occursIn line then .type
  else if Text.occursIn "default".toList line then .default
  else .constant

def exported (line : Text) : Option (String × Outline.ExportKind) :=
  if startsWithWord "export" line then
    (exportHeader.search line).map fun m => (String.ofList m.firstGroup, exportKind line)
  else none

end Braces

end Chunkwise
