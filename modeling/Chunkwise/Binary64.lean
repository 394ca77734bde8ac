namespace Chunkwise

namespace Binary64

def roundQuotient (num den : Nat) : Nat :=
  let q := num / den
  let r := num % den
  if den < 2 * r || (2 * r = den && q % 2 = 1) then q + 1 else q

def significand (num den : Nat) (e : Int) : Nat :=
  roundQuotient (num <<< (-e).toNat) (den <<< e.toNat)

def exponent (num den : Nat) : Int :=
  let e : Int := max (-1074) ((num.log2 : Int) - den.log2 - 53)
  if den <<< e.toNat <<< 53 ≤ num <<< (-e).toNat then e + 1 else e

def power (e : Int) : Rat :=
  if 0 ≤ e then (1 <<< e.toNat : Nat) else mkRat 1 (1 <<< (-e).toNat)

def nearest (x : Rat) : Rat :=
  let num := x.num.natAbs
  let e := exponent num x.den
  let size := ((significand num x.den e : Nat) : Rat) * power e
  if x.num < 0 then -size else size

end Binary64

end Chunkwise
