import Chunkwise.Text.Basic

namespace Chunkwise

inductive Value where
  | null
  | bool (b : Bool)
  /-- The number `mantissa * 10 ^ (-places)`. -/
  | number (mantissa : Int) (places : Nat)
  | string (s : String)
  | array (items : List Value)
  | object (fields : List (String × Value))
  deriving BEq, Inhabited

abbrev Fields := List (String × Value)

namespace Value

def int (n : Int) : Value :=
  .number n 0

def nat (n : Nat) : Value :=
  .int n

def ofOption : Option String → Value
  | none => .null
  | some s => .string s

end Value

namespace Json

def hexDigits (width n : Nat) : List Char :=
  let digits := Nat.toDigits 16 n
  List.replicate (width - digits.length) '0' ++ digits

def unicodeEscape (unit : Nat) : List Char :=
  '\\' :: 'u' :: hexDigits 4 unit

def escape (c : Char) : List Char :=
  if c = '"' then ['\\', '"']
  else if c = '\\' then ['\\', '\\']
  else if c = '\n' then ['\\', 'n']
  else if c = '\r' then ['\\', 'r']
  else if c = '\t' then ['\\', 't']
  else if c = '\x08' then ['\\', 'b']
  else if c = '\x0c' then ['\\', 'f']
  else if 0x20 ≤ c.toNat && c.toNat < 0x7F then [c]
  else if c.toNat < 0x10000 then unicodeEscape c.toNat
  else unicodeEscape (0xD800 + (c.toNat - 0x10000) / 0x400) ++
    unicodeEscape (0xDC00 + (c.toNat - 0x10000) % 0x400)

def quote (s : String) : String :=
  String.ofList ('"' :: (s.toList.flatMap escape ++ ['"']))

def numeral (mantissa : Int) (places : Nat) : String :=
  if places = 0 then toString mantissa
  else
    let digits := Nat.toDigits 10 mantissa.natAbs
    let padded := List.replicate (places + 1 - digits.length) '0' ++ digits
    let whole := padded.length - places
    String.ofList ((if mantissa < 0 then ['-'] else []) ++ padded.take whole ++ '.' :: padded.drop whole)

mutual

def render : Value → String
  | .null => "null"
  | .bool b => if b then "true" else "false"
  | .number m p => numeral m p
  | .string s => quote s
  | .array items => "[" ++ String.intercalate ", " (renderItems items) ++ "]"
  | .object fields => "\x7b" ++ String.intercalate ", " (renderFields fields) ++ "\x7d"

def renderItems : List Value → List String
  | [] => []
  | v :: vs => render v :: renderItems vs

def renderFields : List (String × Value) → List String
  | [] => []
  | (key, v) :: fs => (quote key ++ ": " ++ render v) :: renderFields fs

end

end Json

end Chunkwise
