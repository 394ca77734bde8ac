import Chunkwise.Text.Basic

namespace Chunkwise

namespace Utf8

def replacement : Char := Char.ofNat 0xFFFD

structure Pending where
  bits : Nat
  missing : Nat
  lowest : Nat
  highest : Nat

structure Decoder where
  chars : Text := []
  pending : Option Pending := none

/-- A byte outside any sequence. The bounds of the second byte keep out overlong forms, surrogates
and code points past the last one. -/
def Decoder.start (chars : Text) (byte : Nat) : Decoder :=
  if byte < 0x80 then ⟨Char.ofNat byte :: chars, none⟩
  else if 0xC2 ≤ byte && byte ≤ 0xDF then ⟨chars, some ⟨byte - 0xC0, 1, 0x80, 0xBF⟩⟩
  else if 0xE0 ≤ byte && byte ≤ 0xEF then
    ⟨chars, some ⟨byte - 0xE0, 2, if byte = 0xE0 then 0xA0 else 0x80, if byte = 0xED then 0x9F else 0xBF⟩⟩
  else if 0xF0 ≤ byte && byte ≤ 0xF4 then
    ⟨chars, some ⟨byte - 0xF0, 3, if byte = 0xF0 then 0x90 else 0x80, if byte = 0xF4 then 0x8F else 0xBF⟩⟩
  else ⟨replacement :: chars, none⟩

def Decoder.push (d : Decoder) (b : UInt8) : Decoder :=
  match d.pending with
  | none => start d.chars b.toNat
  | some p =>
      if p.lowest ≤ b.toNat && b.toNat ≤ p.highest then
        let bits := 64 * p.bits + (b.toNat - 0x80)
        if p.missing ≤ 1 then ⟨Char.ofNat bits :: d.chars, none⟩
        else ⟨d.chars, some ⟨bits, p.missing - 1, 0x80, 0xBF⟩⟩
      else start (replacement :: d.chars) b.toNat

def Decoder.finish (d : Decoder) : Text :=
  match d.pending with
  | none => d.chars.reverse
  | some _ => (replacement :: d.chars).reverse

def decode (bytes : ByteArray) : Text :=
  (bytes.data.foldl Decoder.push {}).finish

def encode (t : Text) : ByteArray :=
  (String.ofList t).toUTF8

end Utf8

end Chunkwise
