import Chunkwise.Text.Basic

namespace Chunkwise

namespace Outline

structure Function where
  name : String
  first : Nat
  last : Nat
  signature : Text
  deriving DecidableEq

structure ClassLike where
  name : String
  first : Nat
  last : Nat
  deriving DecidableEq

structure Import where
  source : String
  line : Nat
  deriving DecidableEq

inductive ExportKind where
  | function
  | classLike
  | constant
  | type
  | default
  deriving DecidableEq, Repr

def ExportKind.label : ExportKind → String
  | function => "function"
  | classLike => "class"
  | constant => "const"
  | type => "type"
  | default => "default"

structure Export where
  name : String
  kind : ExportKind
  line : Nat
  deriving DecidableEq

end Outline

structure Outline where
  functions : List Outline.Function := []
  classes : List Outline.ClassLike := []
  imports : List Outline.Import := []
  exports : List Outline.Export := []
  deriving DecidableEq

def Outline.isEmpty (o : Outline) : Bool :=
  o.functions.isEmpty && o.classes.isEmpty && o.imports.isEmpty && o.exports.isEmpty

end Chunkwise
