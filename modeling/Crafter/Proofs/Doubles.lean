import Mathlib
import Crafter.Proofs.Operands
import Crafter.Proofs.Rounding

/-! The numbers that doubles are. A double that is given by its bits is what the bits
say, and the double nearest to a whole number is that number with 53 significant bits,
or infinity if it is too large. -/
namespace Crafter.Number
open Float.Model Float.Model.UnpackedFloat

/-- The size of a double as a number. -/
def Magnitude.value (m : Magnitude) : ℚ := m.significand * 2 ^ m.exponent

/-- The exponent and the fraction of a double tell whether it is a number. -/
theorem isNaNBits_iff (b : BitVec Format.binary64.numBits) :
    isNaNBits b = true ↔ b.toNat / 2 ^ 52 % 2 ^ 11 = 2047 ∧ b.toNat % 2 ^ 52 ≠ 0 := by
  unfold isNaNBits
  rw [unpackExponent_def, unpackMantissa_def, decide_eq_true_iff, ← BitVec.toNat_inj, ne_eq,
    ← BitVec.toNat_inj, BitVec.extractLsb'_toNat, BitVec.extractLsb'_toNat,
    Nat.shiftRight_eq_div_pow, Nat.shiftRight_zero]
  rfl

theorem toNat_toBitVec_ofNat {bits : Nat} (h : bits ≤ infinityBits) :
    (UInt64.ofNat bits).toBitVec.toNat = bits := by
  have hlt : bits < 2 ^ 64 := Nat.lt_of_le_of_lt h (by decide)
  exact UInt64.toNat_ofNat_of_lt' hlt

theorem not_isNaNBits_of_le {bits : Nat} (h : bits ≤ infinityBits) :
    @isNaNBits Format.binary64 (UInt64.ofNat bits).toBitVec = false := by
  rw [← Bool.not_eq_true, isNaNBits_iff, toNat_toBitVec_ofNat h]
  have hinfinity : infinityBits = 2047 * 2 ^ 52 := rfl
  omega

/-- A double has the bits that it is given, up to those of infinity. -/
theorem toBits_ofBits {bits : Nat} (h : bits ≤ infinityBits) :
    (Float.ofBits (UInt64.ofNat bits)).toBits = UInt64.ofNat bits := by
  apply UInt64.toBitVec_inj.mp
  calc (Float.ofBits (UInt64.ofNat bits)).toBits.toBitVec
    _ = pack Format.binary64 (unpack Format.binary64 (UInt64.ofNat bits).toBitVec) := rfl
    _ = (UInt64.ofNat bits).toBitVec := by
      rw [pack_unpack, if_neg]
      rw [not_isNaNBits_of_le h]
      exact Bool.false_ne_true

theorem not_isNaN_ofBits {bits : Nat} (h : bits ≤ infinityBits) :
    (Float.ofBits (UInt64.ofNat bits)).isNaN = false := by
  rw [← Bool.not_eq_true]
  intro hnan
  have hpacked := (isNaN_unpack_iff_of_valid (Float.ofBits (UInt64.ofNat bits)).toModel.valid).mp hnan
  have hbits : (UInt64.ofNat bits).toBitVec = packedNaN Format.binary64 := by
    rw [← toBits_ofBits h]
    exact hpacked
  have hnot := not_isNaNBits_of_le h
  rw [hbits, isNaNBits_packedNaN] at hnot
  cases hnot

theorem view_ofBits {bits : Nat} (h : bits ≤ infinityBits) :
    view (Float.ofBits (UInt64.ofNat bits)) = View.ofBits bits := by
  unfold view
  rw [not_isNaN_ofBits h, if_neg Bool.false_ne_true, toBits_ofBits h]
  exact congrArg View.ofBits (toNat_toBitVec_ofNat h)

/-- A double between the subnormal ones and infinity. -/
theorem ofBits_normal (exponent fraction : Nat) (hlow : 0 < exponent) (hhigh : exponent < 2047)
    (hfraction : fraction < 2 ^ 52) : View.ofBits (exponent * 2 ^ 52 + fraction) =
      .finite false ⟨2 ^ 52 + fraction, (exponent : Int) - 1075,
        decide (fraction = 0 ∧ 1 < exponent)⟩ := by
  have hsign : (exponent * 2 ^ 52 + fraction) / 2 ^ 63 % 2 = 0 := by omega
  have hexponent : (exponent * 2 ^ 52 + fraction) / 2 ^ 52 % 2048 = exponent := by omega
  have hrest : (exponent * 2 ^ 52 + fraction) % 2 ^ 52 = fraction := by omega
  have hpow (k : Nat) : Nat.pow 2 k = 2 ^ k := rfl
  simp only [View.ofBits, hpow]
  rw [hsign, hexponent, hrest, if_neg (by omega), if_neg (by omega)]
  rfl

/-- A significand of 53 bits, or with a carry out of them, put on the exponent below
the one that it belongs to. -/
theorem value_of_significand {top significand : Nat} (low : 2 ^ 52 ≤ significand)
    (high : significand ≤ 2 ^ 53) (finite : (top + 1022) * 2 ^ 52 + significand < infinityBits) :
    ∃ size, View.ofBits ((top + 1022) * 2 ^ 52 + significand) = .finite false size ∧
      size.value = significand * (2 : ℚ) ^ ((top : ℤ) - 52) := by
  have hinfinity : infinityBits = 2047 * 2 ^ 52 := rfl
  rcases Nat.lt_or_eq_of_le high with hlt | rfl
  · have hbits : (top + 1022) * 2 ^ 52 + significand =
        (top + 1023) * 2 ^ 52 + (significand - 2 ^ 52) := by omega
    have hview := ofBits_normal (top + 1023) (significand - 2 ^ 52) (by omega) (by omega) (by omega)
    rw [← hbits] at hview
    refine ⟨_, hview, ?_⟩
    unfold Magnitude.value
    dsimp only
    rw [Nat.add_sub_cancel' low, show ((top + 1023 : Nat) : ℤ) - 1075 = (top : ℤ) - 52 by omega]
  · -- the carry doubles the unit
    have hbits : (top + 1022) * 2 ^ 52 + 2 ^ 53 = (top + 1024) * 2 ^ 52 + 0 := by omega
    have hview := ofBits_normal (top + 1024) 0 (by omega) (by omega) (by decide)
    rw [← hbits] at hview
    refine ⟨_, hview, ?_⟩
    unfold Magnitude.value
    dsimp only
    rw [show ((top + 1024 : Nat) : ℤ) - 1075 = 1 + ((top : ℤ) - 52) by omega,
      zpow_add₀ (by norm_num)]
    norm_num
    ring

theorem two_pow_log2_mul {n : Nat} (hn : n ≠ 0) (h : n.log2 ≤ 52) :
    2 ^ 52 ≤ n * 2 ^ (52 - n.log2) ∧ n * 2 ^ (52 - n.log2) < 2 ^ 53 := by
  have hunit : 0 < 2 ^ (52 - n.log2) := Nat.two_pow_pos _
  constructor
  · calc 2 ^ 52
      _ = 2 ^ n.log2 * 2 ^ (52 - n.log2) := by
        rw [← Nat.pow_add, Nat.add_sub_cancel' h]
      _ ≤ n * 2 ^ (52 - n.log2) := Nat.mul_le_mul_right _ (Nat.log2_self_le hn)
  · calc n * 2 ^ (52 - n.log2)
      _ < 2 ^ (n.log2 + 1) * 2 ^ (52 - n.log2) :=
        Nat.mul_lt_mul_of_pos_right Nat.lt_log2_self hunit
      _ = 2 ^ 53 := by
        rw [← Nat.pow_add, show n.log2 + 1 + (52 - n.log2) = 53 by omega]

/-- Large numbers are rounded to 53 bits before they are put on their exponent. -/
theorem bitsOfNat_of_large {n : Nat} (h : 2 ^ 53 ≤ n) (htop : n.log2 < 1024) :
    bitsOfNat n = (n.log2 + 1022) * 2 ^ 52 + shiftRounding n (n.log2 + 1 - 53) ∧
      2 ^ 52 ≤ shiftRounding n (n.log2 + 1 - 53) ∧ shiftRounding n (n.log2 + 1 - 53) ≤ 2 ^ 53 := by
  have hn : n ≠ 0 := by omega
  have hlog : 53 ≤ n.log2 := (Nat.le_log2 hn).mpr h
  refine ⟨?_, ?_⟩
  · unfold bitsOfNat
    dsimp only
    rw [if_neg hn, if_neg (by omega), if_neg (by omega),
      show n.log2 + 1 - 53 = n.log2 - 52 by omega]
    rfl
  · have hbetween : Neighbours 53 _ _ n := neighbours_of_le (by decide) h
    have hlow := hbetween.large
    have hhigh := hbetween.small
    rcases shiftRounding_cases n (n.log2 + 1 - 53) with hcase | hcase | hcase <;> omega

/-- Numbers of at most 53 bits are put on their exponent as they are. -/
theorem bitsOfNat_of_small {n : Nat} (hn : n ≠ 0) (h : n < 2 ^ 53) :
    bitsOfNat n = (n.log2 + 1022) * 2 ^ 52 + n * 2 ^ (52 - n.log2) := by
  have hlog : n.log2 < 53 := (Nat.log2_lt hn).mpr h
  unfold bitsOfNat
  dsimp only
  rw [if_neg hn, if_neg (by omega), if_pos (by omega)]
  rfl

theorem lt_of_lt_overflow {n : Nat} (h : n < Literal.overflow) :
    n < 2 ^ 54 * 2 ^ 970 - 2 ^ 970 := by
  have hoverflow : Literal.overflow = 2 ^ 54 * 2 ^ 970 - 2 ^ 970 := by decide +kernel
  rwa [hoverflow] at h

theorem log2_lt_of_lt {n k : Nat} (h : n < 2 ^ 54 * 2 ^ k - 2 ^ k) : n.log2 < 54 + k := by
  rcases Nat.eq_zero_or_pos n with rfl | hpos
  · have hzero : Nat.log2 0 = 0 := by decide
    omega
  · rw [Nat.log2_lt (Nat.ne_of_gt hpos), Nat.pow_add]
    omega

/-- More than half a unit below the next power of two, a significand has no carry. -/
theorem shiftRounding_lt {n k : Nat} (h : n < 2 ^ 54 * 2 ^ k - 2 ^ k) :
    shiftRounding n (k + 1) < 2 ^ 53 := by
  have hcases := shiftRounding_cases n (k + 1)
  have hsplit := Nat.div_add_mod n (2 ^ (k + 1))
  have hrest := Nat.mod_lt n (Nat.two_pow_pos (k + 1))
  rw [Nat.pow_succ'] at hcases hsplit hrest
  have hquotient : n / (2 * 2 ^ k) < 2 ^ 53 := by
    rw [Nat.div_lt_iff_lt_mul (by omega)]
    omega
  have hlast : n / (2 * 2 ^ k) = 2 ^ 53 - 1 → 2 * (n % (2 * 2 ^ k)) < 2 * 2 ^ k := by
    intro hq
    rw [hq] at hsplit
    omega
  omega

/-- Only what rounds to infinity has its bits. -/
theorem bitsOfNat_lt_infinityBits {n : Nat} (h : n < Literal.overflow) :
    bitsOfNat n < infinityBits := by
  have hinfinity : infinityBits = 2047 * 2 ^ 52 := rfl
  have htop : n.log2 < 54 + 970 := log2_lt_of_lt (lt_of_lt_overflow h)
  by_cases hn : n = 0
  · subst hn
    decide
  by_cases hlarge : 2 ^ 53 ≤ n
  · obtain ⟨hbits, -, hhigh⟩ := bitsOfNat_of_large hlarge htop
    rw [hbits]
    by_cases hlast : n.log2 = 1023
    · have hcarry := shiftRounding_lt (lt_of_lt_overflow h)
      rw [show n.log2 + 1 - 53 = 970 + 1 by omega]
      omega
    · omega
  · have hsmall := Nat.lt_of_not_le hlarge
    have hlog : n.log2 < 53 := (Nat.log2_lt hn).mpr hsmall
    obtain ⟨-, hhigh⟩ := two_pow_log2_mul hn (by omega)
    rw [bitsOfNat_of_small hn hsmall]
    omega

/-- The double nearest to a whole number is the number with 53 significant bits. -/
theorem exists_value_ofNat {n : Nat} (h : n < Literal.overflow) :
    ∃ size, ∃ m : Nat, view (ofNat n) = .finite false size ∧ size.value = m ∧
      RoundsTo 53 n m := by
  have hfinite := bitsOfNat_lt_infinityBits h
  have htop : n.log2 < 54 + 970 := log2_lt_of_lt (lt_of_lt_overflow h)
  have hview : view (ofNat n) = View.ofBits (bitsOfNat n) := view_ofBits (Nat.le_of_lt hfinite)
  rw [hview]
  by_cases hn : n = 0
  · subst hn
    refine ⟨⟨0, -1074, false⟩, 0, by decide, ?_, roundsTo_self (fits_of_lt (Nat.two_pow_pos 53))⟩
    unfold Magnitude.value
    rw [Nat.cast_zero, zero_mul]
  by_cases hlarge : 2 ^ 53 ≤ n
  · obtain ⟨hbits, hlow, hhigh⟩ := bitsOfNat_of_large hlarge htop
    rw [hbits] at hfinite ⊢
    obtain ⟨size, hsize, hvalue⟩ := value_of_significand hlow hhigh hfinite
    refine ⟨size, _, hsize, ?_, roundsTo_shiftRounding (by decide) hlarge⟩
    have hlog : 53 ≤ n.log2 := (Nat.le_log2 hn).mpr hlarge
    rw [hvalue, show (n.log2 : ℤ) - 52 = ((n.log2 + 1 - 53 : Nat) : ℤ) by omega]
    push_cast
    rw [zpow_natCast]
  · have hsmall := Nat.lt_of_not_le hlarge
    have hlog : n.log2 < 53 := (Nat.log2_lt hn).mpr hsmall
    obtain ⟨hlow, hhigh⟩ := two_pow_log2_mul hn (by omega)
    rw [bitsOfNat_of_small hn hsmall] at hfinite ⊢
    obtain ⟨size, hsize, hvalue⟩ := value_of_significand hlow (Nat.le_of_lt hhigh) hfinite
    refine ⟨size, n, hsize, ?_, roundsTo_self (fits_of_lt hsmall)⟩
    rw [hvalue, show (n.log2 : ℤ) - 52 = -((52 - n.log2 : Nat) : ℤ) by omega]
    push_cast
    rw [zpow_neg, zpow_natCast]
    field_simp

theorem view_ofNat_of_overflow {n : Nat} (h : Literal.overflow ≤ n) :
    view (ofNat n) = .infinite false := by
  unfold ofNat
  rw [bitsOfNat_of_overflow h, view_ofBits (Nat.le_refl _)]
  decide

end Crafter.Number
