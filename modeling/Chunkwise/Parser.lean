import Chunkwise.Boundary
import Chunkwise.Braces.Boundaries
import Chunkwise.Language.Registry

namespace Chunkwise

structure Parser where
  available : Except Fault Bool
  boundaries : Text → Except Fault (List Boundary)

namespace Parser

def braces : Parser where
  available := .ok true
  boundaries t := .ok (Braces.boundaries t)

end Parser

def Parsers : Type := Registry Parser

namespace Parsers

def none : Parsers :=
  Registry.empty Parser.braces

def register (ps : Parsers) (language : String) (parser : Parser) : Parsers :=
  Registry.register ps language parser

def get (ps : Parsers) (language : String) : Parser :=
  Registry.get ps Parser.available language

end Parsers

end Chunkwise
