import Crafter.Number.Double

/-! The shortest decimal of a double: of all decimals that round to it, those
with the fewest digits, and of these the nearest. Everything is compared in
whole numbers, so nothing is lost on the way. -/
namespace Crafter.Number

/-- The number `digits * 10 ^ exponent`. -/
structure Decimal where
  digits : Nat
  exponent : Int
deriving DecidableEq, Repr

/-- Common units for multiples of `10 ^ tens` and multiples of `2 ^ twos`. -/
structure Scale where
  perTen : Nat
  perTwo : Nat

def Scale.of (tens twos : Int) : Scale where
  perTen := Nat.pow 10 tens.toNat * Nat.pow 2 (-twos).toNat
  perTwo := Nat.pow 2 twos.toNat * Nat.pow 10 (-tens).toNat

namespace Magnitude

/-- Four times the lower end of the numbers that round to `m`, as a multiple of
`2 ^ m.exponent`: half way to the double below. -/
def lowerEnd (m : Magnitude) : Nat :=
  4 * m.significand - if m.narrowBelow then 1 else 2

/-- Four times the upper end of the numbers that round to `m`, as a multiple of
`2 ^ m.exponent`: half way to the double above. -/
def upperEnd (m : Magnitude) : Nat := 4 * m.significand + 2

/-- Whether a decimal rounds to `m`. The ends of the interval do so if the
significand is even. -/
def Covers (m : Magnitude) (d : Decimal) : Prop :=
  let s := Scale.of d.exponent m.exponent
  if m.significand % 2 = 0 then
    m.lowerEnd * s.perTwo ≤ 4 * d.digits * s.perTen ∧
      4 * d.digits * s.perTen ≤ m.upperEnd * s.perTwo
  else
    m.lowerEnd * s.perTwo < 4 * d.digits * s.perTen ∧
      4 * d.digits * s.perTen < m.upperEnd * s.perTwo

instance (m : Magnitude) (d : Decimal) : Decidable (m.Covers d) := by
  unfold Covers
  infer_instance

def Below (m : Magnitude) (k : Int) : Prop :=
  m.significand * (Scale.of k m.exponent).perTwo < (Scale.of k m.exponent).perTen

instance (m : Magnitude) (k : Int) : Decidable (m.Below k) := by
  unfold Below
  infer_instance

/-- The least power of ten above a positive `m`. An estimate from the binary
logarithm is at most two steps too low. -/
def decimalPoint (m : Magnitude) : Int :=
  let estimate := Int.fdiv ((m.significand.log2 + m.exponent) * 30103) 100000
  if m.Below estimate then estimate
  else if m.Below (estimate + 1) then estimate + 1
  else estimate + 2

/-- The multiple of `10 ^ k` nearest to `m` among the two around it, if one of
them rounds to `m`; of two that are equally near, the one that is even. -/
def onGrid? (m : Magnitude) (k : Int) : Option Decimal :=
  let s := Scale.of k m.exponent
  let exact := m.significand * s.perTwo
  let lower : Decimal := ⟨exact / s.perTen, k⟩
  let upper : Decimal := ⟨exact / s.perTen + 1, k⟩
  if m.Covers lower then
    if m.Covers upper then
      let middle := (2 * lower.digits + 1) * s.perTen
      if 2 * exact < middle then some lower
      else if middle < 2 * exact then some upper
      else if lower.digits % 2 = 0 then some lower else some upper
    else some lower
  else if m.Covers upper then some upper
  else none

def exactDecimal (m : Magnitude) : Decimal :=
  if 0 ≤ m.exponent then ⟨m.significand * Nat.pow 2 m.exponent.toNat, 0⟩
  else ⟨m.significand * Nat.pow 5 (-m.exponent).toNat, m.exponent⟩

/-- The shortest decimal of a positive `m`. Seventeen digits are enough for
every double. -/
def shortest (m : Magnitude) : Decimal :=
  let point := m.decimalPoint
  ((List.range 17).findSome? fun n => m.onGrid? (point - (n + 1 : Nat))).getD m.exactDecimal

end Magnitude

end Crafter.Number
