import Crafter.Number.Shortest
import Crafter.Proofs.Doubles

/-! The numbers that round to a double. They lie around it, up to half way to its
neighbours; the doubles that are one bit apart share an end of their intervals, and of
two such doubles exactly one takes that end in. So no number rounds to two doubles, and
a decimal that rounds to a double tells which one it is. -/
namespace Crafter.Number

/-- The number that a decimal is. -/
def Decimal.value (d : Decimal) : ℚ := d.digits * 10 ^ d.exponent

namespace Magnitude

/-- Half way to the double below. -/
def low (m : Magnitude) : ℚ := m.lowerEnd * 2 ^ m.exponent / 4

/-- Half way to the double above. -/
def high (m : Magnitude) : ℚ := m.upperEnd * 2 ^ m.exponent / 4

/-- The number rounds to `m`: it lies between the ends, or is one of them if the
significand is even. -/
def Admits (m : Magnitude) (q : ℚ) : Prop :=
  if m.significand % 2 = 0 then m.low ≤ q ∧ q ≤ m.high else m.low < q ∧ q < m.high

theorem Admits.between {m : Magnitude} {q : ℚ} (h : m.Admits q) : m.low ≤ q ∧ q ≤ m.high := by
  unfold Admits at h
  split at h
  · exact h
  · exact ⟨h.1.le, h.2.le⟩

theorem Admits.strict {m : Magnitude} {q : ℚ} (h : m.Admits q) (hodd : m.significand % 2 = 1) :
    m.low < q ∧ q < m.high := by
  unfold Admits at h
  rwa [if_neg (by omega)] at h

theorem low_lt_high (m : Magnitude) : m.low < m.high := by
  have hends : m.lowerEnd < m.upperEnd := by
    unfold lowerEnd upperEnd
    split <;> omega
  have hcast : (m.lowerEnd : ℚ) < m.upperEnd := Nat.cast_lt.mpr hends
  unfold low high
  have hunit : (0 : ℚ) < 2 ^ m.exponent := by positivity
  gcongr

/-- A double rounds to itself. -/
theorem admits_value (m : Magnitude) : m.Admits m.value := by
  have hunit : (0 : ℚ) < 2 ^ m.exponent := by positivity
  have hvalue : m.value = (4 * m.significand : Nat) * 2 ^ m.exponent / 4 := by
    unfold value
    push_cast
    ring
  unfold Admits low high
  rw [hvalue]
  split
  · have hlow : m.lowerEnd ≤ 4 * m.significand := Nat.sub_le _ _
    have hhigh : 4 * m.significand ≤ m.upperEnd := Nat.le_add_right _ 2
    have hlow' : (m.lowerEnd : ℚ) ≤ (4 * m.significand : Nat) := Nat.cast_le.mpr hlow
    have hhigh' : ((4 * m.significand : Nat) : ℚ) ≤ m.upperEnd := Nat.cast_le.mpr hhigh
    constructor <;> gcongr
  · have hlow : m.lowerEnd < 4 * m.significand := by
      unfold lowerEnd
      split <;> omega
    have hhigh : 4 * m.significand < m.upperEnd := by
      unfold upperEnd
      omega
    have hlow' : (m.lowerEnd : ℚ) < (4 * m.significand : Nat) := Nat.cast_lt.mpr hlow
    have hhigh' : ((4 * m.significand : Nat) : ℚ) < m.upperEnd := Nat.cast_lt.mpr hhigh
    constructor <;> gcongr

end Magnitude

/-! Decimals and doubles are compared in units in which both are whole. -/

theorem pow_toNat {q : ℚ} (hq : q ≠ 0) (k : ℤ) : q ^ k.toNat = q ^ k * q ^ (-k).toNat := by
  have hk : k = (k.toNat : ℤ) - ((-k).toNat : ℤ) := by omega
  have hpow : q ^ k = q ^ k.toNat / q ^ (-k).toNat := by
    conv_lhs => rw [hk]
    rw [zpow_sub₀ hq, zpow_natCast, zpow_natCast]
  rw [hpow, div_mul_cancel₀]
  exact pow_ne_zero _ hq

/-- The number of units that make up one. -/
def Scale.one (tens twos : ℤ) : ℚ := 10 ^ (-tens).toNat * 2 ^ (-twos).toNat

theorem Scale.one_pos (tens twos : ℤ) : 0 < Scale.one tens twos := by
  unfold one
  positivity

theorem Scale.perTen_eq (tens twos : ℤ) :
    ((Scale.of tens twos).perTen : ℚ) = 10 ^ tens * Scale.one tens twos := by
  unfold Scale.of Scale.one
  dsimp only
  rw [Nat.pow_eq, Nat.pow_eq]
  push_cast
  rw [pow_toNat (by norm_num) tens]
  ring

theorem Scale.perTwo_eq (tens twos : ℤ) :
    ((Scale.of tens twos).perTwo : ℚ) = 2 ^ twos * Scale.one tens twos := by
  unfold Scale.of Scale.one
  dsimp only
  rw [Nat.pow_eq, Nat.pow_eq]
  push_cast
  rw [pow_toNat (by norm_num) twos]
  ring

namespace Magnitude

section
variable (m : Magnitude) (d : Decimal) (quarters : Nat)

/-- A multiple of a quarter of `2 ^ m.exponent`, and `d`, each in common units. -/
theorem units_eq :
    ((quarters * (Scale.of d.exponent m.exponent).perTwo : Nat) : ℚ) =
        quarters * 2 ^ m.exponent / 4 * (4 * Scale.one d.exponent m.exponent) ∧
      ((4 * d.digits * (Scale.of d.exponent m.exponent).perTen : Nat) : ℚ) =
        d.value * (4 * Scale.one d.exponent m.exponent) := by
  constructor
  · push_cast
    rw [Scale.perTwo_eq]
    ring
  · unfold Decimal.value
    push_cast
    rw [Scale.perTen_eq]
    ring

theorem units_le_iff :
    quarters * (Scale.of d.exponent m.exponent).perTwo ≤
        4 * d.digits * (Scale.of d.exponent m.exponent).perTen ↔
      quarters * 2 ^ m.exponent / 4 ≤ d.value := by
  obtain ⟨hleft, hright⟩ := units_eq m d quarters
  have hpos := Scale.one_pos d.exponent m.exponent
  rw [← Nat.cast_le (α := ℚ), hleft, hright]
  exact mul_le_mul_iff_left₀ (by positivity)

theorem le_units_iff :
    4 * d.digits * (Scale.of d.exponent m.exponent).perTen ≤
        quarters * (Scale.of d.exponent m.exponent).perTwo ↔
      d.value ≤ quarters * 2 ^ m.exponent / 4 := by
  obtain ⟨hleft, hright⟩ := units_eq m d quarters
  have hpos := Scale.one_pos d.exponent m.exponent
  rw [← Nat.cast_le (α := ℚ), hleft, hright]
  exact mul_le_mul_iff_left₀ (by positivity)

/-- Whether a decimal covers a double depends on the number that it is. -/
theorem covers_iff : m.Covers d ↔ m.Admits d.value := by
  unfold Covers Admits low high
  dsimp only
  split
  · rw [units_le_iff, le_units_iff]
  · rw [← Nat.not_le, le_units_iff, not_le, ← Nat.not_le, units_le_iff, not_le]

end

theorem exactDecimal_value (m : Magnitude) : m.exactDecimal.value = m.value := by
  unfold exactDecimal Decimal.value value
  split
  · next hexponent =>
    dsimp only
    rw [Nat.pow_eq, zpow_zero, mul_one]
    push_cast
    rw [← zpow_natCast, Int.toNat_of_nonneg hexponent]
  · next hexponent =>
    have hneg : ((-m.exponent).toNat : ℤ) = -m.exponent := by omega
    have hten : (10 : ℚ) ^ m.exponent = 2 ^ m.exponent * 5 ^ m.exponent := by
      rw [← mul_zpow]
      norm_num
    dsimp only
    rw [Nat.pow_eq, hten]
    push_cast
    rw [← zpow_natCast, hneg, zpow_neg]
    field_simp

/-- What is found on a grid rounds to the double. -/
theorem covers_of_onGrid? {m : Magnitude} {k : ℤ} {d : Decimal} (h : m.onGrid? k = some d) :
    m.Covers d := by
  unfold onGrid? at h
  dsimp only at h
  split_ifs at h <;> cases h <;> assumption

/-- The shortest decimal of a double rounds to it. -/
theorem admits_shortest (m : Magnitude) : m.Admits m.shortest.value := by
  unfold shortest
  dsimp only
  cases hfound : (List.range 17).findSome? fun n => m.onGrid? (m.decimalPoint - (n + 1 : Nat)) with
  | none =>
    rw [Option.getD_none, exactDecimal_value]
    exact m.admits_value
  | some d =>
    rw [Option.getD_some, ← covers_iff]
    obtain ⟨n, _, hgrid⟩ := List.exists_of_findSome?_eq_some hfound
    exact covers_of_onGrid? hgrid

/-- A number that rounds to a positive double is positive. -/
theorem Admits.pos {m : Magnitude} {q : ℚ} (h : m.Admits q) (hm : m.significand ≠ 0) : 0 < q := by
  have hend : 0 < m.lowerEnd := by
    unfold lowerEnd
    split <;> omega
  have hcast : (0 : ℚ) < m.lowerEnd := Nat.cast_pos.mpr hend
  have hunit : (0 : ℚ) < 2 ^ m.exponent := by positivity
  have hlow : 0 < m.low := by
    unfold low
    positivity
  exact hlow.trans_le h.between.1

/-- The size of a finite double by its bits, without the one for the sign. -/
def ofBits (bits : Nat) : Magnitude :=
  if bits < 2 ^ 52 then ⟨bits, -1074, false⟩
  else ⟨2 ^ 52 + bits % 2 ^ 52, (bits / 2 ^ 52 : Nat) - 1075,
    decide (bits % 2 ^ 52 = 0 ∧ 1 < bits / 2 ^ 52)⟩

theorem ofBits_subnormal {bits : Nat} (h : bits < 2 ^ 52) : ofBits bits = ⟨bits, -1074, false⟩ :=
  if_pos h

theorem ofBits_normal {bits : Nat} (h : 2 ^ 52 ≤ bits) :
    ofBits bits = ⟨2 ^ 52 + bits % 2 ^ 52, (bits / 2 ^ 52 : Nat) - 1075,
      decide (bits % 2 ^ 52 = 0 ∧ 1 < bits / 2 ^ 52)⟩ := if_neg (Nat.not_lt.mpr h)

theorem ofBits_parity (bits : Nat) : (ofBits bits).significand % 2 = bits % 2 := by
  unfold ofBits
  split
  · rfl
  · dsimp only
    omega

theorem ofBits_significand_eq_zero_iff (bits : Nat) :
    (ofBits bits).significand = 0 ↔ bits = 0 := by
  unfold ofBits
  split
  · exact Iff.rfl
  · dsimp only
    omega

/-- One double begins where the one below it ends. -/
theorem high_ofBits (bits : Nat) : (ofBits bits).high = (ofBits (bits + 1)).low := by
  unfold high low upperEnd lowerEnd
  by_cases hbits : bits < 2 ^ 52
  · rw [ofBits_subnormal hbits]
    by_cases hnext : bits + 1 < 2 ^ 52
    · rw [ofBits_subnormal hnext]
      rfl
    · -- the least normal double is as far from the one below it as from the one above
      have hlast : bits = 2 ^ 52 - 1 := by omega
      rw [ofBits_normal (Nat.le_of_not_lt hnext), hlast]
      norm_num
  · have hbits := Nat.le_of_not_lt hbits
    rw [ofBits_normal hbits, ofBits_normal (Nat.le_succ_of_le hbits)]
    by_cases hcarry : bits % 2 ^ 52 = 2 ^ 52 - 1
    · -- a new exponent: the unit doubles, and the double below is nearer
      have hfraction : (bits + 1) % 2 ^ 52 = 0 := by omega
      have hexponent : (bits + 1) / 2 ^ 52 = bits / 2 ^ 52 + 1 := by omega
      have hlarge : 1 < bits / 2 ^ 52 + 1 := by omega
      rw [hcarry, hfraction, hexponent]
      dsimp only
      rw [if_pos (decide_eq_true ⟨rfl, hlarge⟩), show ((bits / 2 ^ 52 + 1 : Nat) : ℤ) - 1075 =
        1 + ((bits / 2 ^ 52 : Nat) - 1075) by omega, zpow_add₀ (by norm_num)]
      norm_num
      ring
    · have hfraction : (bits + 1) % 2 ^ 52 = bits % 2 ^ 52 + 1 := by omega
      have hexponent : (bits + 1) / 2 ^ 52 = bits / 2 ^ 52 := by omega
      rw [hfraction, hexponent]
      dsimp only
      rw [if_neg (by simp)]
      congr 3

theorem high_le_low {a b : Nat} (h : a < b) : (ofBits a).high ≤ (ofBits b).low := by
  induction b, h using Nat.le_induction with
  | base => exact (high_ofBits a).le
  | succ b _ ih =>
    calc (ofBits a).high
      _ ≤ (ofBits b).low := ih
      _ ≤ (ofBits b).high := (low_lt_high _).le
      _ = (ofBits (b + 1)).low := high_ofBits b

theorem not_admits_of_lt {a b : Nat} (h : a < b) {q : ℚ} (ha : (ofBits a).Admits q)
    (hb : (ofBits b).Admits q) : False := by
  have hhigh := ha.between.2
  have hlow := hb.between.1
  by_cases hnext : b = a + 1
  · -- the common end belongs to the one that is even
    have hends := high_ofBits a
    rw [← hnext] at hends
    rcases Nat.mod_two_eq_zero_or_one a with heven | hodd
    · have hstrict := hb.strict (by rw [ofBits_parity]; omega)
      linarith [hstrict.1]
    · have hstrict := ha.strict (by rw [ofBits_parity]; exact hodd)
      linarith [hstrict.2]
  · have hbetween : (ofBits a).high < (ofBits b).low :=
      calc (ofBits a).high
        _ = (ofBits (a + 1)).low := high_ofBits a
        _ < (ofBits (a + 1)).high := low_lt_high _
        _ ≤ (ofBits b).low := high_le_low (by omega)
    linarith

/-- No number rounds to two doubles. -/
theorem admits_unique {a b : Nat} {q : ℚ} (ha : (ofBits a).Admits q) (hb : (ofBits b).Admits q) :
    a = b := by
  rcases Nat.lt_trichotomy a b with h | h | h
  · exact (not_admits_of_lt h ha hb).elim
  · exact h
  · exact (not_admits_of_lt h hb ha).elim

end Magnitude

end Crafter.Number
