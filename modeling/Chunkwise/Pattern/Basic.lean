import Chunkwise.Text.Blank
import Chunkwise.Text.Word

namespace Chunkwise

structure Cursor where
  before : Option Char
  rest : Text
  offset : Nat
  groups : List Text

namespace Cursor

def atStart (t : Text) : Cursor :=
  ⟨none, t, 0, []⟩

def onWordEdge (s : Cursor) : Bool :=
  s.before.any isWordChar != s.rest.head?.any isWordChar

def onFinish (s : Cursor) : Bool :=
  s.rest.isEmpty || s.rest == ['\n']

def run (test : Char → Bool) (groups : List Text) :
    Option Char → Nat → Text → List Cursor → List Cursor
  | before, offset, [], passed => ⟨before, [], offset, groups⟩ :: passed
  | before, offset, c :: rest, passed =>
      let here := ⟨before, c :: rest, offset, groups⟩ :: passed
      if test c then run test groups (some c) (offset + 1) rest here else here

def close (opened s : Cursor) : Cursor :=
  { s with groups := opened.rest.take (s.offset - opened.offset) :: s.groups }

end Cursor

inductive Pattern where
  | empty
  | one (test : Char → Bool)
  | star (test : Char → Bool)
  | seq (first second : Pattern)
  | alt (first second : Pattern)
  | group (inner : Pattern)
  | wordEdge
  | start
  | finish

structure Match where
  start : Cursor
  stop : Cursor

def Match.group? (m : Match) (i : Nat) : Option Text :=
  m.stop.groups.reverse[i]?

def Match.firstGroup (m : Match) : Text :=
  (m.group? 0).getD []

namespace Pattern

def run {α : Type} : Pattern → (Cursor → Option α) → Cursor → Option α
  | empty, accept, s => accept s
  | one test, accept, s =>
      match s.rest with
      | [] => none
      | c :: rest => if test c then accept ⟨some c, rest, s.offset + 1, s.groups⟩ else none
  | star test, accept, s => (Cursor.run test s.groups s.before s.offset s.rest []).findSome? accept
  | seq p q, accept, s => p.run (q.run accept) s
  | alt p q, accept, s =>
      match p.run accept s with
      | some r => some r
      | none => q.run accept s
  | group p, accept, s => p.run (fun e => accept (Cursor.close s e)) s
  | wordEdge, accept, s => if s.onWordEdge then accept s else none
  | start, accept, s => if s.before.isNone then accept s else none
  | finish, accept, s => if s.onFinish then accept s else none

def matchAt (p : Pattern) (s : Cursor) : Option Match :=
  p.run (fun e => some ⟨s, e⟩) s

def matchStart (p : Pattern) (t : Text) : Option Match :=
  p.matchAt (Cursor.atStart t)

def searchFrom (p : Pattern) (before : Option Char) (offset : Nat) : Text → Option Match
  | [] => p.matchAt ⟨before, [], offset, []⟩
  | c :: t =>
      match p.matchAt ⟨before, c :: t, offset, []⟩ with
      | some m => some m
      | none => searchFrom p (some c) (offset + 1) t

def search (p : Pattern) (t : Text) : Option Match :=
  p.searchFrom none 0 t

def occursIn (p : Pattern) (t : Text) : Bool :=
  (p.search t).isSome

def findFrom (p : Pattern) (free : Nat) (found : Array Match) (before : Option Char) (offset : Nat) :
    Text → Array Match
  | [] => found
  | c :: t =>
      if offset < free then findFrom p free found (some c) (offset + 1) t
      else match p.matchAt ⟨before, c :: t, offset, []⟩ with
        | some m => findFrom p m.stop.offset (found.push m) (some c) (offset + 1) t
        | none => findFrom p free found (some c) (offset + 1) t

def findAll (p : Pattern) (t : Text) : List Match :=
  (p.findFrom 0 #[] none 0 t).toList

def plus (test : Char → Bool) : Pattern :=
  seq (one test) (star test)

def opt (p : Pattern) : Pattern :=
  alt p empty

def upTo (test : Char → Bool) : Nat → Pattern
  | 0 => empty
  | n + 1 => opt (seq (one test) (upTo test n))

def chain (ps : List Pattern) : Pattern :=
  ps.foldr seq empty

def anyOf : List Pattern → Pattern
  | [] => empty
  | [p] => p
  | p :: ps => alt p (anyOf ps)

def char (c : Char) : Pattern :=
  one (· == c)

def literal (s : String) : Pattern :=
  chain (s.toList.map char)

def literals (ss : List String) : Pattern :=
  anyOf (ss.map literal)

def sameLetter (c d : Char) : Bool :=
  c.toLower == d.toLower ||
    (c.toLower == 'i' && (d.toNat == 0x130 || d.toNat == 0x131)) ||
    (c.toLower == 's' && d.toNat == 0x17F) ||
    (c.toLower == 'k' && d.toNat == 0x212A)

def literalAnyCase (s : String) : Pattern :=
  chain (s.toList.map fun c => one (sameLetter c))

def optWord (s : String) : Pattern :=
  opt (seq (literal s) (plus isBlank))

def notNewline (c : Char) : Bool :=
  c != '\n'

def blanks : Pattern :=
  plus isBlank

def anyBlanks : Pattern :=
  star isBlank

def anything : Pattern :=
  star notNewline

def wordGroup : Pattern :=
  group (plus isWordChar)

end Pattern

end Chunkwise
