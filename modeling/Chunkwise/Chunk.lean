import Chunkwise.Kind
import Chunkwise.Span
import Chunkwise.Value

namespace Chunkwise

inductive DeclarationForm where
  | function
  | classBody
  | interfaceBody
  | typeAlias
  | constant
  deriving DecidableEq, Repr

def DeclarationForm.label : DeclarationForm → String
  | function => "function"
  | classBody => "class"
  | interfaceBody => "interface"
  | typeAlias => "type"
  | constant => "const"

def DeclarationForm.kind : DeclarationForm → Kind
  | function => .function
  | classBody => .classLike
  | _ => .other

inductive Reach where
  | wholeText
  | window
  deriving DecidableEq, Repr

def Reach.label : Reach → String
  | wholeText => "regex-based"
  | window => "regex-streaming"

inductive Origin where
  | lineWindow (lineCount : Nat)
  | merged (boundaryCount : Nat) (kinds : List Kind) (language : String)
  | part (first last : Int) (number parts : Nat) (language : String)
  | declaration (reach : Reach) (form : DeclarationForm) (partOf : Option Span)
  | section (level : Nat) (title : Option String) (isPart : Bool)
  | codeBlock (language : Option String)
  | custom (fields : Fields)
  deriving BEq

namespace Origin

def isPart : Origin → Bool
  | part .. => true
  | _ => false

def fields : Origin → Fields
  | lineWindow n => [("chunk_method", .string "line-based"), ("line_count", .nat n)]
  | merged n kinds language =>
      [("boundary_count", .nat n), ("semantic_types", .array (kinds.map fun k => .string k.label)),
        ("language", .string language)]
  | part first last number parts language =>
      [("split_from_large", .bool true),
        ("original_boundary", .object [("start", .int first), ("end", .int last)]),
        ("part", .nat number), ("total_parts", .nat parts), ("language", .string language)]
  | declaration reach form partOf =>
      [("chunk_method", .string reach.label), ("declaration_type", .string form.label)] ++
        match partOf with
        | none => []
        | some s => [("is_sub_chunk", .bool true), ("original_start", .nat s.first),
            ("original_end", .nat s.last)]
  | «section» level title isPart =>
      [("heading_level", .nat level), ("heading_title", .ofOption title)] ++
        if isPart then [("is_sub_chunk", .bool true)] else []
  | codeBlock language => [("chunk_type", .string "code-block"), ("language", .ofOption language)]
  | custom fields => fields

end Origin

structure Chunk where
  text : Text
  span : Span
  kind : Kind
  name : Option String
  origin : Origin

namespace Chunk

def shift (c : Chunk) (lines : Nat) : Chunk :=
  { c with span := c.span.shift lines }

def shiftBy (c : Chunk) (lines : Int) : Except Fault Chunk :=
  return { c with span := ← c.span.shiftBy lines }

def respan (c : Chunk) (span : Span) (text : Text) : Chunk :=
  { c with span, text }

instance : BEq Chunk where
  beq c d := c.text == d.text && c.span == d.span && c.kind == d.kind && c.name == d.name &&
    c.origin == d.origin

def fields (c : Chunk) : Fields :=
  [("text", .string (String.ofList c.text)), ("start_line", .nat c.span.first),
    ("end_line", .nat c.span.last), ("type", .string c.kind.label), ("name", .ofOption c.name),
    ("metadata", .object c.origin.fields)]

end Chunk

end Chunkwise
