import Chunkwise.Outline
import Chunkwise.Pattern.Basic
import Chunkwise.Tree.Definition

namespace Chunkwise

namespace Node

open Pattern

def importTypes : List String := [
  "import_statement", "import_from_statement", "import_declaration", "using_directive",
  "use_declaration", "preproc_include"]

def sourceFields : List String :=
  ["source", "module_name", "path", "argument", "name"]

def importKeyword : Pattern :=
  chain [anyBlanks,
    anyOf [literal "import", literal "from", literal "using", literal "use",
      chain [char '#', anyBlanks, literal "include"]],
    blanks, opt (seq (literal "static") blanks)]

def afterKeyword (line : Text) : Text :=
  match importKeyword.matchStart line with
  | none => line
  | some m => m.stop.rest

def trimSemicolons (t : Text) : Text :=
  (t.reverse.dropWhile (· == ';')).reverse

def cleanSource (t : Text) : Text :=
  (trimSemicolons t.trim).trim.trimOf ['\'', '"', '<', '>', '(', ')']

def importSource (n : Node) (source : ByteArray) : Text :=
  match sourceFields.findSome? n.child? with
  | some field => cleanSource (field.text source)
  | none => cleanSource (afterKeyword (n.headLine source))

def exportKindOfType (type : String) : Outline.ExportKind :=
  let has (word : String) : Bool := Text.occursIn word.toList type.toList
  if has "function" then .function
  else if has "class" then .classLike
  else if has "type" || has "interface" then .type
  else .constant

def exportedName (declaration : Node) (source : ByteArray) : Option Text :=
  match declaration.name? source with
  | some name => some name
  | none =>
      (declaration.children.find? (·.type == "variable_declarator")).bind (·.name? source)

def defaultExport : Pattern :=
  chain [literal "export", blanks, literal "default", wordEdge]

def exported (n : Node) (source : ByteArray) : Option Outline.Export :=
  match n.child? "declaration" with
  | some declaration =>
      match exportedName declaration source with
      | none | some [] => none
      | some name => some ⟨String.ofList name, exportKindOfType declaration.type, n.firstLine⟩
  | none =>
      if (defaultExport.matchStart (n.text source)).isSome then
        let name := match n.child? "value" with
          | none => "default".toList
          | some value => value.headLine source
        some ⟨String.ofList name, .default, n.firstLine⟩
      else none

inductive Entry where
  | function (f : Outline.Function)
  | classLike (c : Outline.ClassLike)
  | «import» (i : Outline.Import)
  | «export» (e : Outline.Export)

def entryOf (n : Node) (source : ByteArray) : Option Entry :=
  match n.kind? with
  | some .function | some .method => if n.isDecorated then none else
      match n.name? source with
      | none | some [] => none
      | some name =>
          some (.function ⟨String.ofList name, n.firstLine, n.lastLine, n.headLine source⟩)
  | some .classLike => if n.isDecorated then none else
      match n.name? source with
      | none | some [] => none
      | some name => some (.classLike ⟨String.ofList name, n.firstLine, n.lastLine⟩)
  | _ =>
      if importTypes.contains n.type then
        match n.importSource source with
        | [] => none
        | s => some (.import ⟨String.ofList s, n.firstLine⟩)
      else if n.type == "export_statement" then (n.exported source).map .export
      else none

def outlineOf (entries : List Entry) : Outline where
  functions := entries.filterMap fun | .function f => some f | _ => none
  classes := entries.filterMap fun | .classLike c => some c | _ => none
  imports := entries.filterMap fun | .import i => some i | _ => none
  exports := entries.filterMap fun | .export e => some e | _ => none

def outline (root : Node) (source : ByteArray) : Outline :=
  outlineOf (root.walk.filterMap (·.entryOf source))

end Node

end Chunkwise
