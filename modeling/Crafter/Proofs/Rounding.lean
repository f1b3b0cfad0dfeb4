import Crafter.Number.Double
import Mathlib.Data.Nat.Dist

/-! Rounding to a number of significant bits. A whole number rounds to the nearest
one that has so many bits, and of two that are equally near to the one whose last bit
is zero. There is exactly one such number, and `shiftRounding` gives it. -/
namespace Crafter.Number

/-- A whole number with so many significant bits: only zeros follow them. -/
def Fits (bits n : Nat) : Prop :=
  ∃ significand shift, significand < 2 ^ bits ∧ n = significand * 2 ^ shift

/-- `m` is `n` rounded to so many significant bits, half to even. -/
structure RoundsTo (bits n m : Nat) : Prop where
  fits : Fits bits m
  nearest : ∀ k, Fits bits k → n.dist m ≤ n.dist k
  /-- If another number is equally near, the last of the bits is zero. -/
  even : ∀ k, Fits bits k → n.dist k = n.dist m → k ≠ m → Fits (bits - 1) m

/-- `n` lies at or above the multiple `q` of a unit, and below the next one. The unit
is the one in which `q` has exactly so many bits. -/
structure Neighbours (bits shift q n : Nat) : Prop where
  large : 2 ^ bits ≤ 2 * q
  small : q < 2 ^ bits
  below : q * 2 ^ shift ≤ n
  above : n < (q + 1) * 2 ^ shift

variable {bits n : Nat}

theorem fits_of_lt (h : n < 2 ^ bits) : Fits bits n :=
  ⟨n, 0, h, by rw [Nat.pow_zero, Nat.mul_one]⟩

theorem two_pow_eq_double (hbits : 0 < bits) : 2 ^ bits = 2 * 2 ^ (bits - 1) := by
  rw [← Nat.pow_succ', Nat.succ_eq_add_one, Nat.sub_add_cancel hbits]

/-- Large numbers with few bits are multiples of large powers of two. -/
theorem Fits.dvd (h : Fits bits n) {k : Nat} (large : 2 ^ bits * 2 ^ k ≤ 2 * n) : 2 ^ k ∣ n := by
  obtain ⟨significand, shift, hlt, rfl⟩ := h
  by_cases hk : k ≤ shift
  · exact Nat.dvd_mul_left_of_dvd (Nat.pow_dvd_pow 2 hk) significand
  · -- with a smaller unit the number would be too small
    have hunit : 2 ^ shift * 2 ≤ 2 ^ k := by
      rw [← Nat.pow_succ]
      exact Nat.pow_le_pow_right (by decide) (by omega)
    have hpos : 0 < 2 ^ shift := Nat.two_pow_pos shift
    have hsmall : 2 * (significand * 2 ^ shift) < 2 ^ bits * 2 ^ k :=
      calc 2 * (significand * 2 ^ shift)
        _ = significand * (2 ^ shift * 2) := by
          rw [Nat.mul_comm 2, Nat.mul_assoc]
        _ < 2 ^ bits * (2 ^ shift * 2) := Nat.mul_lt_mul_of_pos_right hlt (by omega)
        _ ≤ 2 ^ bits * 2 ^ k := Nat.mul_le_mul_left _ hunit
    omega

/-- Multiples of a unit have so many bits, up to a carry out of them. -/
theorem fits_of_le (hbits : 0 < bits) {q : Nat} (h : q ≤ 2 ^ bits) (shift : Nat) :
    Fits bits (q * 2 ^ shift) := by
  rcases Nat.lt_or_eq_of_le h with hlt | rfl
  · exact ⟨q, shift, hlt, rfl⟩
  · refine ⟨1, bits + shift, Nat.one_lt_two_pow (by omega), ?_⟩
    rw [Nat.one_mul, Nat.pow_add]

/-- One bit fewer is enough for an even multiple of a unit. -/
theorem fits_of_even (hbits : 1 < bits) {q : Nat} (h : q ≤ 2 ^ bits) (heven : q % 2 = 0)
    (shift : Nat) : Fits (bits - 1) (q * 2 ^ shift) := by
  obtain ⟨half, rfl⟩ := Nat.dvd_of_mod_eq_zero heven
  have hunit : 2 * half * 2 ^ shift = half * 2 ^ (shift + 1) := by
    rw [Nat.pow_succ', ← Nat.mul_assoc, Nat.mul_comm 2 half]
  have hdouble := two_pow_eq_double (Nat.lt_of_succ_lt hbits)
  rw [hunit]
  apply fits_of_le <;> omega

/-- An odd multiple of a unit needs all the bits. -/
theorem even_of_fits (hbits : 0 < bits) {q shift : Nat} (large : 2 ^ bits ≤ 2 * q)
    (h : Fits (bits - 1) (q * 2 ^ shift)) : q % 2 = 0 := by
  have hsize : 2 ^ (bits - 1) * 2 ^ (shift + 1) ≤ 2 * (q * 2 ^ shift) :=
    calc 2 ^ (bits - 1) * 2 ^ (shift + 1)
      _ = 2 ^ bits * 2 ^ shift := by
        rw [Nat.pow_succ', ← Nat.mul_assoc, Nat.mul_comm _ 2, ← two_pow_eq_double hbits]
      _ ≤ 2 * q * 2 ^ shift := Nat.mul_le_mul_right _ large
      _ = 2 * (q * 2 ^ shift) := Nat.mul_assoc ..
  have hdvd := h.dvd hsize
  rw [Nat.pow_succ', Nat.mul_dvd_mul_iff_right (Nat.two_pow_pos shift)] at hdvd
  exact Nat.mod_eq_zero_of_dvd hdvd

namespace Neighbours
variable {shift q : Nat}

/-- No number with so many bits lies between the neighbours. -/
theorem le_or_le (h : Neighbours bits shift q n) {m : Nat} (hm : Fits bits m) :
    m ≤ q * 2 ^ shift ∨ (q + 1) * 2 ^ shift ≤ m := by
  by_contra hbetween
  rw [not_or, Nat.not_le, Nat.not_le] at hbetween
  obtain ⟨hlow, hhigh⟩ := hbetween
  have hsize : 2 ^ bits * 2 ^ shift ≤ 2 * m :=
    calc 2 ^ bits * 2 ^ shift
      _ ≤ 2 * q * 2 ^ shift := Nat.mul_le_mul_right _ h.large
      _ = 2 * (q * 2 ^ shift) := Nat.mul_assoc ..
      _ ≤ 2 * m := by omega
  obtain ⟨c, rfl⟩ := hm.dvd hsize
  rw [Nat.mul_comm _ c] at hlow hhigh
  have := Nat.lt_of_mul_lt_mul_right hlow
  have := Nat.lt_of_mul_lt_mul_right hhigh
  omega

/-- A number rounds to one of its neighbours. -/
theorem eq_or_eq (h : Neighbours bits shift q n) (hbits : 0 < bits) {m : Nat}
    (hm : RoundsTo bits n m) : m = q * 2 ^ shift ∨ m = (q + 1) * 2 ^ shift := by
  have hlow := hm.nearest _ (fits_of_le hbits (Nat.le_of_lt h.small) shift)
  have hhigh := hm.nearest _ (fits_of_le hbits (Nat.succ_le_of_lt h.small) shift)
  have hbelow := h.below
  have habove := h.above
  unfold Nat.dist at hlow hhigh
  rw [Nat.succ_eq_add_one] at hhigh
  rcases h.le_or_le hm.fits with hle | hle
  · exact Or.inl (by omega)
  · exact Or.inr (by omega)

/-- A number does not round to both of its neighbours: one of them is odd. -/
theorem not_both (h : Neighbours bits shift q n) (hbits : 0 < bits)
    (hlow : RoundsTo bits n (q * 2 ^ shift)) (hhigh : RoundsTo bits n ((q + 1) * 2 ^ shift)) :
    False := by
  have hunit : 0 < 2 ^ shift := Nat.two_pow_pos shift
  have hne : q * 2 ^ shift ≠ (q + 1) * 2 ^ shift := by
    rw [Nat.succ_mul]
    omega
  have hdist := Nat.le_antisymm (hlow.nearest _ hhigh.fits) (hhigh.nearest _ hlow.fits)
  have hq := even_of_fits hbits h.large (hlow.even _ hhigh.fits hdist.symm hne.symm)
  have hlarge : 2 ^ bits ≤ 2 * (q + 1) := by
    have := h.large
    omega
  have hq' := even_of_fits hbits hlarge (hhigh.even _ hlow.fits hdist hne)
  omega

end Neighbours

/-- The neighbours of a number that has more bits than there is room for. -/
theorem neighbours_of_le (hbits : 0 < bits) (h : 2 ^ bits ≤ n) :
    Neighbours bits (n.log2 + 1 - bits) (n / 2 ^ (n.log2 + 1 - bits)) n := by
  have hn : n ≠ 0 := by
    have := Nat.two_pow_pos bits
    omega
  have hlog : bits ≤ n.log2 := (Nat.le_log2 hn).mpr h
  have hunit : 0 < 2 ^ (n.log2 + 1 - bits) := Nat.two_pow_pos _
  refine ⟨?_, ?_, Nat.div_mul_le_self .., ?_⟩
  · have hhalf : 2 ^ (bits - 1) ≤ n / 2 ^ (n.log2 + 1 - bits) := by
      rw [Nat.le_div_iff_mul_le hunit, ← Nat.pow_add,
        show bits - 1 + (n.log2 + 1 - bits) = n.log2 by omega]
      exact Nat.log2_self_le hn
    rw [two_pow_eq_double hbits]
    exact Nat.mul_le_mul_left 2 hhalf
  · rw [Nat.div_lt_iff_lt_mul hunit, ← Nat.pow_add,
      show bits + (n.log2 + 1 - bits) = n.log2 + 1 by omega]
    exact Nat.lt_log2_self
  · rw [← Nat.div_lt_iff_lt_mul hunit]
    exact Nat.lt_succ_self _

/-- A number that has so many bits rounds to itself. -/
theorem roundsTo_self (h : Fits bits n) : RoundsTo bits n n where
  fits := h
  nearest k _ := by
    rw [Nat.dist_self]
    exact Nat.zero_le _
  even k _ hk hne := by
    rw [Nat.dist_self] at hk
    exact absurd (Nat.eq_of_dist_eq_zero hk).symm hne

theorem RoundsTo.eq_self {m : Nat} (hm : RoundsTo bits n m) (h : Fits bits n) : m = n := by
  have hle := hm.nearest n h
  rw [Nat.dist_self] at hle
  exact (Nat.eq_of_dist_eq_zero (Nat.le_zero.mp hle)).symm

/-- There is one rounding only. -/
theorem RoundsTo.unique (hbits : 0 < bits) {a b : Nat} (ha : RoundsTo bits n a)
    (hb : RoundsTo bits n b) : a = b := by
  by_cases hlarge : 2 ^ bits ≤ n
  · have h := neighbours_of_le hbits hlarge
    rcases h.eq_or_eq hbits ha with rfl | rfl <;> rcases h.eq_or_eq hbits hb with rfl | rfl
    · rfl
    · exact (h.not_both hbits ha hb).elim
    · exact (h.not_both hbits hb ha).elim
    · rfl
  · have hfits := fits_of_lt (Nat.lt_of_not_le hlarge)
    rw [ha.eq_self hfits, hb.eq_self hfits]

/-- The rounded quotient: the lower one, the upper one, or the even one of both. -/
theorem shiftRounding_cases (n shift : Nat) :
    (2 * (n % 2 ^ shift) < 2 ^ shift ∧ shiftRounding n shift = n / 2 ^ shift) ∨
    (2 * (n % 2 ^ shift) = 2 ^ shift ∧
      shiftRounding n shift = n / 2 ^ shift + n / 2 ^ shift % 2) ∨
    (2 ^ shift < 2 * (n % 2 ^ shift) ∧ shiftRounding n shift = n / 2 ^ shift + 1) := by
  have hunit : Nat.pow 2 shift = 2 ^ shift := rfl
  simp only [shiftRounding, hunit]
  split
  · next hlt => exact Or.inl ⟨hlt, rfl⟩
  split
  · next heq => exact Or.inr (Or.inl ⟨heq, rfl⟩)
  · exact Or.inr (Or.inr ⟨by omega, rfl⟩)

/-- A number between its neighbours rounds to the nearer one, and to the even one if
it is half way. -/
theorem Neighbours.roundsTo {shift q m : Nat} (h : Neighbours bits shift q n) (hbits : 1 < bits)
    (hm : (2 * (n - q * 2 ^ shift) < 2 ^ shift ∧ m = q) ∨
      (2 * (n - q * 2 ^ shift) = 2 ^ shift ∧ m = q + q % 2) ∨
      (2 ^ shift < 2 * (n - q * 2 ^ shift) ∧ m = q + 1)) :
    RoundsTo bits n (m * 2 ^ shift) := by
  have hbelow := h.below
  have habove := h.above
  have hsmall := h.small
  have hsucc : (q + 1) * 2 ^ shift = q * 2 ^ shift + 2 ^ shift := Nat.succ_mul ..
  have hmq : m = q ∨ m = q + 1 := by omega
  have hplace : m * 2 ^ shift = q * 2 ^ shift ∧ m = q ∨
      m * 2 ^ shift = q * 2 ^ shift + 2 ^ shift ∧ m = q + 1 := by
    rcases hmq with rfl | rfl
    · exact Or.inl ⟨rfl, rfl⟩
    · exact Or.inr ⟨hsucc, rfl⟩
  refine ⟨fits_of_le (by omega) (by omega) shift, ?_, ?_⟩
  · intro k hk
    have hside := h.le_or_le hk
    unfold Nat.dist
    omega
  · -- another number as near as the rounding is the other neighbour
    intro k hk hdist hne
    have hside := h.le_or_le hk
    unfold Nat.dist at hdist
    exact fits_of_even hbits (by omega) (by omega) shift

/-- The rounded quotient by the unit is the significand of the rounding. -/
theorem roundsTo_shiftRounding (hbits : 1 < bits) (h : 2 ^ bits ≤ n) :
    RoundsTo bits n (shiftRounding n (n.log2 + 1 - bits) * 2 ^ (n.log2 + 1 - bits)) := by
  have hbetween := neighbours_of_le (Nat.lt_of_succ_lt hbits) h
  have hcases := shiftRounding_cases n (n.log2 + 1 - bits)
  rw [Nat.mod_eq_sub_div_mul] at hcases
  exact hbetween.roundsTo hbits hcases

end Crafter.Number
