import Chunkwise.Text.Blank
import Chunkwise.Text.Digit

namespace Chunkwise

namespace Integer

def maxDigits : Nat := 4300

structure Reading where
  value : Nat := 0
  digits : Nat := 0
  onDigit : Bool := false

def Reading.push (r : Reading) (c : Char) : Option Reading :=
  match Digit.value? c with
  | some d => some ⟨10 * r.value + d, r.digits + 1, true⟩
  | none => if c = '_' && r.onDigit then some { r with onDigit := false } else none

def readDigits (t : Text) : Option Nat :=
  match t.foldlM Reading.push {} with
  | some r => if r.onDigit && r.digits ≤ maxDigits then some r.value else none
  | none => none

def isPadding (c : Char) : Bool :=
  isBlank c && !(0x1C ≤ c.toNat && c.toNat ≤ 0x1F)

def withoutPadding (t : Text) : Text :=
  ((t.dropWhile isPadding).reverse.dropWhile isPadding).reverse

def read (t : Text) : Option Int :=
  match withoutPadding t with
  | '-' :: rest => (readDigits rest).map fun n => -(n : Int)
  | '+' :: rest => (readDigits rest).map fun n => (n : Int)
  | rest => (readDigits rest).map fun n => (n : Int)

end Integer

end Chunkwise
