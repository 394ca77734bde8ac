import Chunkwise.Text.Basic
import Chunkwise.Text.CaseContext
import Chunkwise.Text.LowerCaseRuns

namespace Chunkwise

namespace LowerCase

def inRanges (ranges : List (Nat × Nat)) (c : Char) : Bool :=
  ranges.any fun r => r.1 ≤ c.toNat && c.toNat ≤ r.2

def ofChar (c : Char) : Char :=
  if c.toNat < 0x80 then c.toLower
  else match runs.find? (·.covers c.toNat) with
    | none => c
    | some r => Char.ofNat (Int.toNat (c.toNat + r.distance))

def capitalDottedI : Char := Char.ofNat 0x130
def combiningDot : Char := Char.ofNat 0x307
def capitalSigma : Char := Char.ofNat 0x3A3
def finalSigma : Char := Char.ofNat 0x3C2

def meetsCased (neighbours : Text) : Bool :=
  match neighbours.dropWhile (inRanges passedOverRanges) with
  | [] => false
  | c :: _ => inRanges casedRanges c

/-- Lower case of one character between what stands before it, nearest first, and after it. A
capital sigma is final when a cased character comes before it and none after it. -/
def inContext (before : Text) (c : Char) (after : Text) : Text :=
  if c = capitalDottedI then ['i', combiningDot]
  else if c = capitalSigma && meetsCased before && !meetsCased after then [finalSigma]
  else [ofChar c]

def ofText : Text → Text → Text
  | _, [] => []
  | before, c :: after => inContext before c after ++ ofText (c :: before) after

end LowerCase

def Text.toLower (t : Text) : Text :=
  LowerCase.ofText [] t

def lowerCase (s : String) : String :=
  String.ofList (Text.toLower s.toList)

end Chunkwise
