import Chunkwise.Binary64
import Chunkwise.Proofs.Pieces
import Mathlib.Algebra.Order.Field.Rat
import Mathlib.Data.Rat.Floor
import Mathlib.Tactic.Linarith
import Mathlib.Tactic.Ring

namespace Chunkwise

namespace Binary64

variable {num den k : Nat} {e : Int}

theorem roundQuotient_le (hden : 0 < den) (h : num ≤ k * den) : roundQuotient num den ≤ k := by
  have hdiv := Nat.div_add_mod num den
  have hmod := Nat.mod_lt num hden
  have hle : num / den ≤ k := Nat.div_le_of_le_mul (by rwa [Nat.mul_comm])
  rw [roundQuotient]
  split
  · next hup =>
      rcases Nat.lt_or_eq_of_le hle with hlt | heq
      · exact hlt
      · simp only [Bool.or_eq_true, decide_eq_true_eq, Bool.and_eq_true] at hup
        rw [heq, Nat.mul_comm] at hdiv
        omega
  · exact hle

theorem lt_roundQuotient (hden : 0 < den) (h : 2 * (k * den) + den < 2 * num) :
    k < roundQuotient num den := by
  have hdiv := Nat.div_add_mod num den
  have hle : k ≤ num / den := (Nat.le_div_iff_mul_le hden).mpr (by omega)
  rw [roundQuotient]
  split
  · omega
  · next hup =>
      rcases Nat.lt_or_eq_of_le hle with hlt | heq
      · exact hlt
      · simp only [Bool.or_eq_true, decide_eq_true_eq, Bool.and_eq_true, not_or] at hup
        rw [← heq, Nat.mul_comm] at hdiv
        omega

theorem roundQuotient_eq_zero (hnum : 0 < num) (h : 2 * num ≤ den) : roundQuotient num den = 0 := by
  have hdiv : num / den = 0 := Nat.div_eq_of_lt (by omega)
  have hmod : num % den = num := Nat.mod_eq_of_lt (by omega)
  rw [roundQuotient, hdiv, hmod, if_neg]
  simpa using h

theorem mul_two_pow_le (n : Nat) {i j : Nat} (h : i ≤ j) : n * 2 ^ i ≤ n * 2 ^ j :=
  Nat.mul_le_mul_left n (Nat.pow_le_pow_right Nat.two_pos h)

theorem mul_two_pow_succ (n i : Nat) : n * 2 ^ (i + 1) = 2 * (n * 2 ^ i) := by
  rw [Nat.pow_succ, ← Nat.mul_assoc, Nat.mul_comm]

theorem exists_exponent_eq (den : Nat) (hnum : 0 < num) (hbits : num < 2 ^ 53) :
    ∃ shift : Nat, exponent num den = -(shift : Int) ∧ shift ≤ 1074 ∧
      (shift = 1074 ∨ 2 ^ 52 * den ≤ num * 2 ^ shift) := by
  have hlog : num.log2 < 53 := (Nat.log2_lt (Nat.ne_of_gt hnum)).mpr hbits
  have hnumLog : 2 ^ num.log2 ≤ num := Nat.log2_self_le (Nat.ne_of_gt hnum)
  have hdenLog : den < 2 ^ (den.log2 + 1) := Nat.lt_log2_self
  obtain ⟨shift, hshift⟩ : ∃ shift, shift = min 1074 (53 + den.log2 - num.log2) := ⟨_, rfl⟩
  have hmin : max (-1074) ((num.log2 : Int) - den.log2 - 53) = -(shift : Int) := by omega
  rw [exponent, hmin]
  have htoNat : (-(shift : Int)).toNat = 0 := by omega
  have hneg : (-(-(shift : Int))).toNat = shift := by omega
  rw [htoNat, hneg, Nat.shiftLeft_zero, Nat.shiftLeft_eq, Nat.shiftLeft_eq]
  split
  · next hfull =>
      obtain ⟨n, rfl⟩ : ∃ n, shift = n + 1 := ⟨shift - 1, by omega⟩
      refine ⟨n, by omega, by omega, .inr ?_⟩
      have hdouble := mul_two_pow_succ num n
      omega
  · refine ⟨shift, rfl, by omega, ?_⟩
    rcases Nat.lt_or_ge (53 + den.log2 - num.log2) 1074 with hlt | hge
    · right
      calc
        2 ^ 52 * den ≤ 2 ^ 52 * 2 ^ (den.log2 + 1) := Nat.mul_le_mul_left _ (Nat.le_of_lt hdenLog)
        _ = 2 ^ num.log2 * 2 ^ shift := by
            rw [← Nat.pow_add, ← Nat.pow_add]
            congr 1
            omega
        _ ≤ num * 2 ^ shift := Nat.mul_le_mul_right _ hnumLog
    · left
      omega

theorem exists_nearest_eq {x : Rat} (hx : 0 < x) (hbits : x.num.natAbs < 2 ^ 53) :
    ∃ shift : Nat, shift ≤ 1074 ∧ (shift = 1074 ∨ 2 ^ 52 * x.den ≤ x.num.natAbs * 2 ^ shift) ∧
      nearest x = (roundQuotient (x.num.natAbs * 2 ^ shift) x.den : Rat) / 2 ^ shift := by
  have hnum : 0 < x.num := Rat.num_pos.mpr hx
  obtain ⟨shift, hexp, hle, hfull⟩ :=
    exists_exponent_eq x.den (show 0 < x.num.natAbs by omega) hbits
  refine ⟨shift, hle, hfull, ?_⟩
  have hsign : ¬ x.num < 0 := by omega
  have htoNat : (-(shift : Int)).toNat = 0 := by omega
  have hneg : (-(-(shift : Int))).toNat = shift := by omega
  simp only [nearest, hexp, significand, htoNat, hneg, Nat.shiftLeft_eq, Nat.pow_zero, Nat.mul_one,
    if_neg hsign]
  have hpower : power (-(shift : Int)) = 1 / 2 ^ shift := by
    rw [power, hneg]
    split
    · next hzero =>
        obtain rfl : shift = 0 := by omega
        simp
    · simp [Rat.mkRat_eq_div, Nat.shiftLeft_eq]
  rw [hpower]
  ring

theorem ceil_div_eq_iff {n d k : Nat} (hd : 0 < d) :
    ⌈(n / d : Rat)⌉ = (k + 1 : Nat) ↔ k * d < n ∧ n ≤ (k + 1) * d := by
  have hd' : (0 : Rat) < d := Nat.cast_pos.mpr hd
  rw [Int.ceil_eq_iff, lt_div_iff₀ hd', div_le_iff₀ hd']
  push_cast
  rw [add_sub_cancel_right]
  constructor
  · rintro ⟨hlt, hle⟩
    exact ⟨by exact_mod_cast hlt, by exact_mod_cast hle⟩
  · rintro ⟨hlt, hle⟩
    exact ⟨by exact_mod_cast hlt, by exact_mod_cast hle⟩

theorem natAbs_div_den {x : Rat} (hx : 0 < x) : (x.num.natAbs / x.den : Rat) = x := by
  have hnum : (x.num.natAbs : Int) = x.num := by
    have := Rat.num_pos.mpr hx
    omega
  calc
    (x.num.natAbs / x.den : Rat) = ((x.num.natAbs : Int) : Rat) / x.den := by rw [Int.cast_natCast]
    _ = x := by rw [hnum, Rat.num_div_den]

theorem half_unit_lt {shift : Nat} (hbits : num < 2 ^ 53) (hbelow : k * den < num)
    (hfull : shift = 1074 ∨ 2 ^ 52 * den ≤ num * 2 ^ shift)
    (hnormal : den < 2 * (num * 2 ^ 1074)) :
    2 * (k * 2 ^ shift * den) + den < 2 * (num * 2 ^ shift) := by
  rcases Nat.lt_or_ge (num * 2 ^ shift) (2 ^ 52 * den) with hlow | hfull
  · obtain rfl : shift = 1074 := hfull.resolve_right (Nat.not_le.mpr hlow)
    have hlt : num < den := by
      by_contra hge
      have : den * 2 ^ 1074 ≤ num * 2 ^ 1074 := Nat.mul_le_mul_right _ (Nat.not_lt.mp hge)
      omega
    have hk : k = 0 := by
      by_contra hk
      have : 1 * den ≤ k * den := Nat.mul_le_mul_right _ (Nat.pos_of_ne_zero hk)
      omega
    rw [hk, Nat.zero_mul, Nat.zero_mul, Nat.mul_zero, Nat.zero_add]
    exact hnormal
  · have hden : den < 2 * 2 ^ shift := by
      have : num * 2 ^ shift < 2 ^ 53 * 2 ^ shift := Nat.mul_lt_mul_of_pos_right hbits (Nat.two_pow_pos _)
      omega
    have hstep : (k * den + 1) * 2 ^ shift ≤ num * 2 ^ shift := Nat.mul_le_mul_right _ hbelow
    have hexpand : (k * den + 1) * 2 ^ shift = k * 2 ^ shift * den + 2 ^ shift := by ring
    omega

theorem ceil_nearest {x : Rat} (hx : 0 < x) (hbits : x.num.natAbs < 2 ^ 53)
    (hnormal : x.den < 2 * (x.num.natAbs * 2 ^ 1074)) : ⌈nearest x⌉ = ⌈x⌉ := by
  obtain ⟨shift, -, hfull, heq⟩ := exists_nearest_eq hx hbits
  obtain ⟨k, hk⟩ : ∃ k : Nat, ⌈x⌉ = (k + 1 : Nat) := by
    have := Int.ceil_pos.mpr hx
    exact ⟨(⌈x⌉ - 1).toNat, by omega⟩
  have hden := x.den_pos
  have hceil := hk
  rw [← natAbs_div_den hx, ceil_div_eq_iff hden] at hceil
  have hpow : ((2 : Rat) ^ shift) = ((2 ^ shift : Nat) : Rat) := by push_cast; rfl
  rw [hk, heq, hpow, ceil_div_eq_iff (Nat.two_pow_pos shift)]
  constructor
  · exact lt_roundQuotient hden (half_unit_lt hbits hceil.1 hfull hnormal)
  · apply roundQuotient_le hden
    calc
      x.num.natAbs * 2 ^ shift ≤ (k + 1) * x.den * 2 ^ shift := Nat.mul_le_mul_right _ hceil.2
      _ = (k + 1) * 2 ^ shift * x.den := by ring

theorem nearest_eq_zero {x : Rat} (hx : 0 < x) (hbits : x.num.natAbs < 2 ^ 53)
    (hsmall : 2 * (x.num.natAbs * 2 ^ 1074) ≤ x.den) : nearest x = 0 := by
  obtain ⟨shift, hle, -, heq⟩ := exists_nearest_eq hx hbits
  have hnum : 0 < x.num.natAbs := Int.natAbs_pos.mpr (Rat.num_ne_zero.mpr (ne_of_gt hx))
  have hshift := mul_two_pow_le x.num.natAbs hle
  have hpos : 0 < x.num.natAbs * 2 ^ shift := Nat.mul_pos hnum (Nat.two_pow_pos shift)
  have hhalf := (Nat.mul_le_mul_left 2 hshift).trans hsmall
  rw [heq, roundQuotient_eq_zero hpos hhalf, Nat.cast_zero, zero_div]

end Binary64

theorem ceil_div_eq {n d : Nat} (hn : 0 < n) (hd : 0 < d) :
    ⌈(n / d : Rat)⌉ = ((n + d - 1) / d : Nat) := by
  obtain ⟨k, hk⟩ : ∃ k, (n + d - 1) / d = k + 1 := by
    have : 0 < (n + d - 1) / d := Nat.div_pos (by omega) hd
    exact ⟨(n + d - 1) / d - 1, by omega⟩
  have hlow : (k + 1) * d ≤ n + d - 1 := (Nat.le_div_iff_mul_le hd).mp hk.ge
  have hhigh : n + d - 1 < (k + 1 + 1) * d := (Nat.div_lt_iff_lt_mul hd).mp (by omega)
  rw [hk, Binary64.ceil_div_eq_iff hd]
  simp only [Nat.add_mul, Nat.one_mul] at hlow hhigh ⊢
  omega

theorem pieceCount_eq_ceil_nearest {lines : Nat} {width : Int} (hlines : 0 < lines)
    (hbits : lines < 2 ^ 53) (hwidth : 0 < width) :
    pieceCount lines width = .ok ⌈Binary64.nearest (lines / width)⌉.toNat := by
  obtain ⟨w, rfl⟩ := Int.eq_ofNat_of_zero_le (Int.le_of_lt hwidth)
  have hw : 0 < w := Int.natCast_pos.mp hwidth
  rw [Int.cast_natCast]
  obtain ⟨x, hx⟩ : ∃ x : Rat, x = lines / w := ⟨_, rfl⟩
  have hpos : 0 < x := hx ▸ div_pos (Nat.cast_pos.mpr hlines) (Nat.cast_pos.mpr hw)
  -- the fraction in lowest terms
  have hcross : x.num.natAbs * w = lines * x.den := by
    have h := (Binary64.natAbs_div_den hpos).trans hx
    rw [div_eq_div_iff (Nat.cast_ne_zero.mpr x.den_ne_zero)
      (Nat.cast_ne_zero.mpr (Nat.ne_of_gt hw))] at h
    exact_mod_cast h
  have hnum : x.num.natAbs < 2 ^ 53 := by
    apply Nat.lt_of_le_of_lt (Nat.le_of_dvd hlines ?_) hbits
    exact x.reduced.dvd_of_dvd_mul_right (hcross ▸ Nat.dvd_mul_right _ _)
  have hscale (e : Nat) : lines <<< (e + 1) ≤ w ↔ 2 * (x.num.natAbs * 2 ^ e) ≤ x.den := by
    have hN : 0 < x.num.natAbs := Int.natAbs_pos.mpr (Rat.num_ne_zero.mpr (ne_of_gt hpos))
    rw [Nat.shiftLeft_eq, ← Binary64.mul_two_pow_succ]
    calc
      lines * 2 ^ (e + 1) ≤ w ↔ x.num.natAbs * (lines * 2 ^ (e + 1)) ≤ x.num.natAbs * w :=
        (Nat.mul_le_mul_left_iff hN).symm
      _ ↔ lines * (x.num.natAbs * 2 ^ (e + 1)) ≤ lines * x.den := by rw [hcross, Nat.mul_left_comm]
      _ ↔ x.num.natAbs * 2 ^ (e + 1) ≤ x.den := Nat.mul_le_mul_left_iff hlines
  rw [← hx]
  by_cases hlow : lines <<< 1075 ≤ w
  · rw [Binary64.nearest_eq_zero hpos hnum ((hscale 1074).mp hlow), Int.ceil_zero, Int.toNat_zero]
    rw [pieceCount, if_neg (by omega), if_neg (by omega), Int.toNat_natCast, if_pos hlow]
  · have hnormal := Nat.not_le.mp (mt (hscale 1074).mpr hlow)
    rw [Binary64.ceil_nearest hpos hnum hnormal, hx, ceil_div_eq hlines hw, Int.toNat_natCast]
    exact pieceCount_of_lt hwidth (Nat.not_le.mp hlow)

end Chunkwise
