import Chunkwise.Kind
import Chunkwise.Text.Utf8
import Chunkwise.Tree.Node

namespace Chunkwise

namespace Node

def functionTypes : List String := [
  "function_declaration", "function_definition", "function_expression", "function_item",
  "arrow_function", "generator_function_declaration", "func_literal", "local_function_statement"]

def methodTypes : List String :=
  ["method_definition", "method_declaration", "constructor_declaration"]

def classTypes : List String := [
  "class_declaration", "class_definition", "class_specifier", "interface_declaration",
  "struct_declaration", "struct_specifier", "struct_item", "enum_declaration", "enum_item",
  "trait_item", "record_declaration", "type_declaration"]

def blockTypes : List String :=
  ["impl_item", "mod_item", "namespace_definition", "namespace_declaration"]

def kindOfType (type : String) : Option Kind :=
  if functionTypes.contains type then some .function
  else if methodTypes.contains type then some .method
  else if classTypes.contains type then some .classLike
  else if blockTypes.contains type then some .block
  else none

def isDecorated (n : Node) : Bool :=
  n.type == "decorated_definition"

def definition? (n : Node) : Option Node :=
  n.child? "definition"

def kind? (n : Node) : Option Kind :=
  if n.isDecorated then n.definition?.bind fun d => kindOfType d.type
  else kindOfType n.type

def firstLine (n : Node) : Nat :=
  n.firstRow + 1

def lastLine (n : Node) : Nat :=
  n.lastRow + 1

def bytes (n : Node) (source : ByteArray) : ByteArray :=
  source.extract n.firstByte n.endByte

def text (n : Node) (source : ByteArray) : Text :=
  Utf8.decode (n.bytes source)

/-- The text of a node up to its first newline. No other character has a byte with the value of a
newline, so the bytes after it need not be read. -/
def headLine (n : Node) (source : ByteArray) : Text :=
  let bytes := n.bytes source
  match bytes.findIdx? (· == 0x0A) with
  | none => Utf8.decode bytes
  | some i => Utf8.decode (bytes.extract 0 i)

def isName (n : Node) : Bool :=
  ["identifier", "type_identifier", "field_identifier", "qualified_identifier"].contains n.type

def declared? (n : Node) : Option Node :=
  if n.isName then some n
  else match _h : n.child? "declarator" with
    | none => none
    | some d => d.declared?
termination_by sizeOf n
decreasing_by exact sizeOf_child _h

def nameNode? (n : Node) : Option Node :=
  match n.child? "name" with
  | some name => some name
  | none => (n.child? "declarator").bind declared?

def name? (n : Node) (source : ByteArray) : Option Text :=
  let definition := if n.isDecorated then n.definition? else some n
  (definition.bind nameNode?).map (·.text source)

end Node

end Chunkwise
