import Chunkwise.Fault

namespace Chunkwise

inductive Kind where
  | function
  | classLike
  | method
  | block
  | statement
  | codeBlock
  | markdownHeading
  | lineBased
  | other
  deriving DecidableEq, Repr

namespace Kind

def all : List Kind :=
  [function, classLike, method, block, statement, codeBlock, markdownHeading, lineBased, other]

def label : Kind → String
  | function => "function"
  | classLike => "class"
  | method => "method"
  | block => "block"
  | statement => "statement"
  | codeBlock => "code-block"
  | markdownHeading => "markdown-heading"
  | lineBased => "line-based"
  | other => "other"

def ofLabel (s : String) : Except Fault Kind :=
  match all.find? (·.label == s) with
  | some k => .ok k
  | none => .error (.unknownKind s)

end Kind

end Chunkwise
