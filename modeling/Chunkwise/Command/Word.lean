import Chunkwise.Command.Switch
import Chunkwise.Text.Digit

namespace Chunkwise

inductive Misuse where
  | ambiguous (word : String)
  | unexpectedValue (word : String)
  | missingValue (s : Setting)
  | notInteger (s : Setting) (value : String)
  | noPaths
  | notUnderstood (words : List String)
  deriving DecidableEq, Repr

inductive Word where
  | plain (text : String)
  | separator
  | flag (f : Flag)
  | valuedFlag (text : String)
  | setting (s : Setting) (value : Option String)
  | letters (text : Text)
  | unknown (text : String)
  deriving DecidableEq, Repr

namespace Word

def splitValue (t : Text) : Text × Option String :=
  match t.dropWhile (· != '=') with
  | [] => (t, none)
  | _ :: value => (t.takeWhile (· != '='), some (String.ofList value))

def isDigit (c : Char) : Bool :=
  (Digit.value? c).isSome

def isUnsigned (t : Text) : Bool :=
  let t := if t.endsIn '\n' then t.dropLast else t
  match t.dropWhile isDigit with
  | [] => !t.isEmpty
  | '.' :: fraction => !fraction.isEmpty && fraction.all isDigit
  | _ => false

def ofUnnamed (word : String) (behindHyphen : Text) : Word :=
  if isUnsigned behindHyphen || behindHyphen.contains ' ' then .plain word else .unknown word

def ofSwitch (word : String) (value : Option String) : Switch → Word
  | .flag f => if value.isSome then .valuedFlag word else .flag f
  | .setting s => .setting s value

def ofLetters (word : String) (first : Char) : Text → Word
  | ['='] => .valuedFlag word
  | '=' :: rest => .letters (first :: rest)
  | rest => .letters (first :: rest)

def ofString (word : String) : Except Misuse Word :=
  match word.toList with
  | '-' :: '-' :: t =>
      match Switch.startingWith (splitValue t).1 with
      | [] => .ok (ofUnnamed word ('-' :: t))
      | [s] => .ok (ofSwitch word (splitValue t).2 s)
      | _ => .error (.ambiguous word)
  | '-' :: c :: t =>
      .ok (if (Flag.ofLetter? c).isSome then ofLetters word c t else ofUnnamed word (c :: t))
  | _ => .ok (.plain word)

def ofStrings : List String → Except Misuse (List Word)
  | [] => .ok []
  | word :: words =>
      if word = "--" then .ok (.separator :: words.map .plain)
      else return (← ofString word) :: (← ofStrings words)

def flagsOf (t : Text) : Except Misuse (List Flag) :=
  match t.mapM Flag.ofLetter? with
  | some flags => .ok flags
  | none => .error (.unexpectedValue (String.ofList ('-' :: t)))

end Word

end Chunkwise
