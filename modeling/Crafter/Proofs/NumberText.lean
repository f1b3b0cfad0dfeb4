import Crafter.Proofs.Written

/-! The text of a number tells which number it is. Whole numbers below 10^21 are the
only ones shown as plain digits; every other finite number is shown by a decimal that
rounds to it and to no other double. -/
namespace Crafter.Number

open JsonText Float.Model Float.Model.UnpackedFloat

/-! The bits of a double that is a number. -/

theorem ne_packedNaN {x : Float} (h : x.isNaN = false) :
    x.toBits.toBitVec ≠ packedNaN Format.binary64 := by
  intro hpacked
  have hnan : x.isNaN = true := (isNaN_unpack_iff_of_valid x.toModel.valid).mpr hpacked
  rw [h] at hnan
  cases hnan

/-- The bits of a number, without the one for the sign, are at most those of infinity. -/
theorem size_le_of_not_isNaN {x : Float} (h : x.isNaN = false) :
    x.toBits.toNat % 2 ^ 63 ≤ infinityBits := by
  have hinfinity : infinityBits = 2047 * 2 ^ 52 := rfl
  have hlt : x.toBits.toNat < 2 ^ 64 := x.toBits.toNat_lt
  have hnumber : ¬ @isNaNBits Format.binary64 x.toBits.toBitVec = true := by
    intro hbits
    unfold isNaNBits at hbits
    obtain ⟨hexponent, hmantissa⟩ := of_decide_eq_true hbits
    exact ne_packedNaN h (x.toModel.valid.eq_packedNaN hexponent hmantissa)
  rw [isNaNBits_iff, UInt64.toNat_toBitVec] at hnumber
  omega

theorem ext_toBits {a b : Float} (h : a.toBits.toNat = b.toBits.toNat) : a = b := by
  have hbits : a.toModel.toBits = b.toModel.toBits := UInt64.toNat_inj.mp h
  obtain ⟨⟨bits, valid⟩⟩ := a
  obtain ⟨⟨bits', valid'⟩⟩ := b
  dsimp only at hbits
  subst hbits
  rfl

/-- Numbers are equal if they have the same bits; the two zeros are equal, too. -/
theorem beq_iff {a b : Float} (ha : a.isNaN = false) (hb : b.isNaN = false) :
    (a == b) = true ↔
      a = b ∨ a.toBits.toNat % 2 ^ 63 = 0 ∧ b.toBits.toNat % 2 ^ 63 = 0 := by
  have hzero (x : Float) : x.toBits.toNat % 2 ^ 63 = 0 ↔
      x.toBits.toBitVec = packedZero Format.binary64 .positive ∨
        x.toBits.toBitVec = packedZero Format.binary64 .negative := by
    have hlt : x.toBits.toNat < 2 ^ 64 := x.toBits.toNat_lt
    have hpositive : (packedZero Format.binary64 .positive).toNat = 0 := by decide
    have hnegative : (packedZero Format.binary64 .negative).toNat = 2 ^ 63 := by decide
    rw [← BitVec.toNat_inj, ← BitVec.toNat_inj, hpositive, hnegative, UInt64.toNat_toBitVec]
    omega
  have hsame : a = b ↔ a.toBits.toBitVec = b.toBits.toBitVec := by
    constructor
    · rintro rfl
      rfl
    · exact fun h => ext_toBits (congrArg BitVec.toNat h)
  have hmodel : (a == b) = true ↔ _ := unpack_beq_unpack_iff a.toModel.valid b.toModel.valid
  rw [hmodel, hsame, hzero, hzero]
  constructor
  · rintro ⟨-, -, h | h | h⟩
    · exact Or.inl h
    · exact Or.inr ⟨Or.inl h.1, Or.inr h.2⟩
    · exact Or.inr ⟨Or.inr h.1, Or.inl h.2⟩
  · rintro (h | ⟨h | h, h' | h'⟩)
    · exact ⟨ne_packedNaN ha, ne_packedNaN hb, Or.inl h⟩
    · exact ⟨ne_packedNaN ha, ne_packedNaN hb, Or.inl (h.trans h'.symm)⟩
    · exact ⟨ne_packedNaN ha, ne_packedNaN hb, Or.inr (Or.inl ⟨h, h'⟩)⟩
    · exact ⟨ne_packedNaN ha, ne_packedNaN hb, Or.inr (Or.inr ⟨h, h'⟩)⟩
    · exact ⟨ne_packedNaN ha, ne_packedNaN hb, Or.inl (h.trans h'.symm)⟩

/-- What the bits of a double say, if it is a number. -/
theorem View.ofBits_eq {bits : Nat} (hbits : bits < 2 ^ 64)
    (hsize : bits % 2 ^ 63 ≤ infinityBits) : View.ofBits bits =
      if bits % 2 ^ 63 = infinityBits then .infinite (decide (2 ^ 63 ≤ bits))
      else .finite (decide (2 ^ 63 ≤ bits)) (Magnitude.ofBits (bits % 2 ^ 63)) := by
  have hinfinity : infinityBits = 2047 * 2 ^ 52 := rfl
  have hpow (k : Nat) : Nat.pow 2 k = 2 ^ k := rfl
  have hsign : decide (bits / 2 ^ 63 % 2 = 1) = decide (2 ^ 63 ≤ bits) := by
    apply decide_eq_decide.mpr
    omega
  have hexponent : bits / 2 ^ 52 % 2048 = bits % 2 ^ 63 / 2 ^ 52 := by omega
  have hfraction : bits % 2 ^ 52 = bits % 2 ^ 63 % 2 ^ 52 := by omega
  unfold View.ofBits
  simp only [hpow]
  rw [hsign, hexponent, hfraction]
  generalize bits % 2 ^ 63 = size at hsize ⊢
  by_cases hinf : size = infinityBits
  · rw [if_pos hinf, if_pos (by omega), if_pos (by omega)]
  · rw [if_neg hinf, if_neg (by omega)]
    by_cases hsubnormal : size < 2 ^ 52
    · rw [if_pos (by omega), Magnitude.ofBits_subnormal hsubnormal, Nat.mod_eq_of_lt hsubnormal]
    · rw [if_neg (by omega), Magnitude.ofBits_normal (Nat.le_of_not_lt hsubnormal)]

/-- A number is infinite, or it is finite and its bits are those of its size, and the
sign. -/
theorem view_cases {x : Float} (h : x.isNaN = false) :
    (∃ negative, view x = .infinite negative ∧
      x.toBits.toNat = infinityBits + if negative then 2 ^ 63 else 0) ∨
    ∃ negative size, view x = .finite negative (Magnitude.ofBits size) ∧
      x.toBits.toNat = size + (if negative then 2 ^ 63 else 0) ∧
      x.toBits.toNat % 2 ^ 63 = size ∧ size < infinityBits := by
  have hsize := size_le_of_not_isNaN h
  have hlt : x.toBits.toNat < 2 ^ 64 := x.toBits.toNat_lt
  have hview : view x = View.ofBits x.toBits.toNat := by
    unfold view
    rw [h, if_neg Bool.false_ne_true]
  rw [hview, View.ofBits_eq hlt hsize]
  generalize x.toBits.toNat = bits at hsize hlt ⊢
  have hbits : bits = bits % 2 ^ 63 + if decide (2 ^ 63 ≤ bits) = true then 2 ^ 63 else 0 := by
    simp only [decide_eq_true_iff]
    split <;> omega
  by_cases hinf : bits % 2 ^ 63 = infinityBits
  · rw [if_pos hinf]
    rw [hinf] at hbits
    exact Or.inl ⟨_, rfl, hbits⟩
  · rw [if_neg hinf]
    exact Or.inr ⟨_, _, rfl, hbits, rfl, Nat.lt_of_le_of_ne hsize hinf⟩

/-! Sizes. -/

namespace Magnitude

variable (m : Magnitude)

theorem value_nonneg : 0 ≤ m.value := by
  have hunit : (0 : ℚ) < 2 ^ m.exponent := by positivity
  unfold value
  positivity

theorem value_eq_zero_iff : m.value = 0 ↔ m.significand = 0 := by
  have hunit : (0 : ℚ) < 2 ^ m.exponent := by positivity
  unfold value
  rw [mul_eq_zero, or_iff_left hunit.ne', Nat.cast_eq_zero]

theorem whole?_eq_some_iff (n : Nat) : m.whole? = some n ↔ m.value = n := by
  unfold whole? value
  split
  · next hexponent =>
    have hcast : ((m.significand * 2 ^ m.exponent.toNat : Nat) : ℚ) =
        m.significand * 2 ^ m.exponent := by
      push_cast
      rw [← zpow_natCast, Int.toNat_of_nonneg hexponent]
    rw [Nat.pow_eq, ← hcast, Nat.cast_inj, Option.some.injEq]
  · next hexponent =>
    have hneg : m.exponent = -((-m.exponent).toNat : ℤ) := by omega
    have hvalue : (m.significand : ℚ) * 2 ^ m.exponent = n ↔
        m.significand = n * 2 ^ (-m.exponent).toNat := by
      rw [hneg, zpow_neg, zpow_natCast, ← div_eq_mul_inv, div_eq_iff (by positivity),
        ← hneg, ← Nat.cast_inj (R := ℚ)]
      push_cast
      exact Iff.rfl
    rw [hvalue, Nat.pow_eq]
    generalize (-m.exponent).toNat = k
    have hunit : 0 < 2 ^ k := Nat.two_pow_pos k
    constructor
    · intro h
      split at h
      · next hdvd =>
        rw [← Option.some.inj h, Nat.div_mul_cancel (Nat.dvd_of_mod_eq_zero hdvd)]
      · cases h
    · intro h
      rw [h, if_pos (Nat.mul_mod_left n _), Nat.mul_div_cancel _ hunit]

theorem display_whole {m : Magnitude} {n : Nat} (h : m.value = n) (hn : n < wholeLimit) :
    m.display = toString n := by
  unfold display
  rw [(m.whole?_eq_some_iff n).mpr h]
  exact if_pos hn

theorem display_other {m : Magnitude} (h : ¬ ∃ n : Nat, m.value = n ∧ n < wholeLimit) :
    m.display = String.ofList m.shortest.write := by
  unfold display
  cases hwhole : m.whole? with
  | none => rfl
  | some n => exact if_neg fun hn => h ⟨n, (m.whole?_eq_some_iff n).mp hwhole, hn⟩

/-- A size is shown by a numeral for a number that rounds to it. -/
theorem display_unsigned : ∃ q, Unsigned m.display.toList q ∧ m.Admits q := by
  by_cases hwhole : ∃ n : Nat, m.value = n ∧ n < wholeLimit
  · obtain ⟨n, hvalue, hn⟩ := hwhole
    refine ⟨n, ?_, hvalue ▸ m.admits_value⟩
    rw [display_whole hvalue hn]
    change Unsigned (digitChars n) n
    rw [digitChars_eq]
    exact Json.unsigned_toDigits n
  · have hpositive : m.significand ≠ 0 := by
      intro hzero
      refine hwhole ⟨0, ?_, by decide⟩
      rw [m.value_eq_zero_iff.mpr hzero, Nat.cast_zero]
    have hshortest := m.admits_shortest
    have hdigits : 0 < m.shortest.digits := by
      have hpos := hshortest.pos hpositive
      unfold Decimal.value at hpos
      by_contra hzero
      rw [Nat.eq_zero_of_not_pos hzero, Nat.cast_zero, zero_mul] at hpos
      exact lt_irrefl _ hpos
    refine ⟨m.shortest.value, ?_, hshortest⟩
    rw [display_other hwhole, String.toList_ofList]
    exact Decimal.write_unsigned hdigits

/-- Only whole numbers below 10^21 are shown as plain digits. -/
theorem digits_display_iff :
    Digits m.display.toList ↔ ∃ n : Nat, m.value = n ∧ n < wholeLimit := by
  by_cases hwhole : ∃ n : Nat, m.value = n ∧ n < wholeLimit
  · obtain ⟨n, hvalue, hn⟩ := hwhole
    refine iff_of_true ?_ ⟨n, hvalue, hn⟩
    rw [display_whole hvalue hn]
    exact digits_digitChars n
  · refine iff_of_false ?_ hwhole
    rw [display_other hwhole, String.toList_ofList]
    exact m.shortest.write_not_digits

end Magnitude

/-! Numbers. -/

/-- The number that a finite double is. -/
def value? (x : Float) : Option ℚ :=
  match view x with
  | .finite negative size => some (if negative then -size.value else size.value)
  | _ => none

/-- Whether a size is shown behind a sign. -/
def signed (negative : Bool) (m : Magnitude) : Prop := negative = true ∧ m.significand ≠ 0

theorem toList_display_of_finite {x : Float} {negative : Bool} {m : Magnitude}
    (h : view x = .finite negative m) :
    (signed negative m → (display x).toList = '-' :: m.display.toList) ∧
      (¬ signed negative m → (display x).toList = m.display.toList) := by
  unfold display signed
  rw [h]
  dsimp only
  constructor
  · intro hsigned
    rw [if_pos hsigned, String.toList_append]
    rfl
  · intro hsigned
    rw [if_neg hsigned]

theorem no_sign_of_unsigned {cs rest : List Char} {q : ℚ} (h : Unsigned cs q) :
    cs ≠ '-' :: rest := by
  rintro rfl
  obtain ⟨c, rest', hcs, hc⟩ := unsigned_cons h
  rw [← (List.cons.inj hcs).1] at hc
  cases hc

/-- Two finite numbers with one text have the same size, and the same sign if they are
not zero. -/
theorem eq_of_display_eq {a b : Float} {negative negative' : Bool} {size size' : Nat}
    (ha : view a = .finite negative (Magnitude.ofBits size))
    (hb : view b = .finite negative' (Magnitude.ofBits size')) (h : display a = display b) :
    size = size' ∧ (size = 0 ∨ negative = negative') := by
  obtain ⟨q, hq, hadmits⟩ := (Magnitude.ofBits size).display_unsigned
  obtain ⟨q', hq', hadmits'⟩ := (Magnitude.ofBits size').display_unsigned
  obtain ⟨hsigned, hplain⟩ := toList_display_of_finite ha
  obtain ⟨hsigned', hplain'⟩ := toList_display_of_finite hb
  rw [h] at hsigned hplain
  have hsigns : signed negative (Magnitude.ofBits size) ↔
      signed negative' (Magnitude.ofBits size') := by
    constructor
    · intro hs
      by_contra hs'
      exact no_sign_of_unsigned hq' ((hplain' hs').symm.trans (hsigned hs))
    · intro hs'
      by_contra hs
      exact no_sign_of_unsigned hq ((hplain hs).symm.trans (hsigned' hs'))
  have htexts : (Magnitude.ofBits size).display.toList =
      (Magnitude.ofBits size').display.toList := by
    by_cases hs : signed negative (Magnitude.ofBits size)
    · exact (List.cons.inj ((hsigned hs).symm.trans (hsigned' (hsigns.mp hs)))).2
    · exact (hplain hs).symm.trans (hplain' (mt hsigns.mpr hs))
  rw [unsigned_append_inj hq hq' htexts] at hadmits
  have hsize := Magnitude.admits_unique hadmits hadmits'
  refine ⟨hsize, ?_⟩
  by_cases hzero : size = 0
  · exact Or.inl hzero
  · right
    have hsignificand := mt (Magnitude.ofBits_significand_eq_zero_iff size).mp hzero
    unfold signed at hsigns
    rw [← hsize, and_iff_left hsignificand, and_iff_left hsignificand] at hsigns
    exact Bool.eq_iff_iff.mpr hsigns

theorem isNumeric_of_display {x : Float} {negative : Bool} {m : Magnitude}
    (h : view x = .finite negative m) : ∀ c ∈ (display x).toList, isNumeric c = true := by
  obtain ⟨q, hq, -⟩ := m.display_unsigned
  obtain ⟨hsigned, hplain⟩ := toList_display_of_finite h
  by_cases hs : signed negative m
  · rw [hsigned hs]
    exact isNumeric_of_numeral (.negative hq)
  · rw [hplain hs]
    exact isNumeric_of_numeral (.positive hq)

theorem display_infinite {x : Float} {negative : Bool} (h : view x = .infinite negative) :
    display x = if negative then "-Infinity" else "Infinity" := by
  unfold display
  rw [h]
  cases negative <;> rfl

theorem display_nan {x : Float} (h : x.isNaN = true) : display x = "NaN" := by
  unfold display view
  rw [if_pos h]

/-- The words are no numerals. -/
theorem display_ne_word {x : Float} {negative : Bool} {m : Magnitude}
    (h : view x = .finite negative m) :
    display x ≠ "NaN" ∧ display x ≠ "Infinity" ∧ display x ≠ "-Infinity" := by
  have hnumeric := isNumeric_of_display h
  refine ⟨?_, ?_, ?_⟩
  · intro hword
    exact absurd (hnumeric 'N' (by rw [hword]; decide)) (by decide)
  · intro hword
    exact absurd (hnumeric 'I' (by rw [hword]; decide)) (by decide)
  · intro hword
    exact absurd (hnumeric 'I' (by rw [hword]; decide)) (by decide)

theorem value_ofBits_zero : (Magnitude.ofBits 0).value = 0 :=
  (Magnitude.value_eq_zero_iff _).mpr rfl

theorem display_zero {x : Float} {negative : Bool}
    (h : view x = .finite negative (Magnitude.ofBits 0)) : display x = "0" := by
  have hplain : ¬ signed negative (Magnitude.ofBits 0) := fun hs => hs.2 rfl
  have htext := (toList_display_of_finite h).2 hplain
  have hvalue : (Magnitude.ofBits 0).value = (0 : Nat) := by rw [value_ofBits_zero, Nat.cast_zero]
  rw [Magnitude.display_whole hvalue (by decide)] at htext
  exact String.toList_inj.mp htext

theorem display_ne_of_infinite {a b : Float} {negative negative' : Bool} {m : Magnitude}
    (ha : view a = .infinite negative) (hb : view b = .finite negative' m) :
    display a ≠ display b := by
  obtain ⟨-, hinfinity, hminus⟩ := display_ne_word hb
  rw [display_infinite ha]
  cases negative with
  | false => exact hinfinity.symm
  | true => exact hminus.symm

/-- Only the two zeros share a text. -/
theorem display_eq_iff_bits {a b : Float} (ha : a.isNaN = false) (hb : b.isNaN = false) :
    display a = display b ↔
      a = b ∨ a.toBits.toNat % 2 ^ 63 = 0 ∧ b.toBits.toNat % 2 ^ 63 = 0 := by
  have hinfinity : infinityBits = 2047 * 2 ^ 52 := rfl
  constructor
  · intro h
    rcases view_cases ha with ⟨s, hview, hbits⟩ | ⟨s, size, hview, hbits, hsize, -⟩
    · rcases view_cases hb with ⟨s', hview', hbits'⟩ | ⟨s', size', hview', -⟩
      · rw [display_infinite hview, display_infinite hview'] at h
        have hs : s = s' := by
          revert h
          cases s <;> cases s' <;> decide
        left
        apply ext_toBits
        rw [hbits, hbits', hs]
      · exact absurd h (display_ne_of_infinite hview hview')
    · rcases view_cases hb with ⟨s', hview', -⟩ | ⟨s', size', hview', hbits', hsize', -⟩
      · exact absurd h.symm (display_ne_of_infinite hview' hview)
      · obtain ⟨rfl, hzero | rfl⟩ := eq_of_display_eq hview hview' h
        · exact Or.inr ⟨hsize.trans hzero, hsize'.trans hzero⟩
        · left
          apply ext_toBits
          rw [hbits, hbits']
  · have shown_zero {x : Float} (hx : x.isNaN = false) (hzero : x.toBits.toNat % 2 ^ 63 = 0) :
        display x = "0" := by
      rcases view_cases hx with ⟨s, -, hbits⟩ | ⟨s, size, hview, -, hsize, -⟩
      · split at hbits <;> omega
      · rw [hzero] at hsize
        rw [← hsize] at hview
        exact display_zero hview
    rintro (rfl | ⟨hzero, hzero'⟩)
    · rfl
    · rw [shown_zero ha hzero, shown_zero hb hzero']

theorem value?_of_zero {x : Float} (h : x.isNaN = false) (hzero : x.toBits.toNat % 2 ^ 63 = 0) :
    value? x = some 0 := by
  have hinfinity : infinityBits = 2047 * 2 ^ 52 := rfl
  rcases view_cases h with ⟨s, -, hbits⟩ | ⟨s, size, hview, -, hsize, -⟩
  · split at hbits <;> omega
  · rw [hzero] at hsize
    rw [← hsize] at hview
    unfold value?
    rw [hview]
    dsimp only
    rw [value_ofBits_zero, neg_zero, ite_self]

/-! Whole numbers. -/

theorem toList_toString_neg {k : Nat} (h : 0 < k) :
    (toString (-(k : ℤ))).toList = '-' :: digitChars k := by
  obtain ⟨k, rfl⟩ := Nat.exists_eq_succ_of_ne_zero (Nat.ne_of_gt h)
  change ("-" ++ (k + 1).repr).toList = _
  rw [String.toList_append]
  rfl

theorem toList_toString_nat (k : Nat) : (toString (k : ℤ)).toList = digitChars k := rfl

/-- Whole numbers below 10^21 are shown with all their digits. -/
theorem display_integer {x : Float} {n : ℤ} (h : value? x = some (n : ℚ))
    (hn : n.natAbs < wholeLimit) : display x = toString n := by
  unfold value? at h
  split at h
  · next negative m hview =>
    obtain ⟨hsigned, hplain⟩ := toList_display_of_finite hview
    have hvalue := Option.some.inj h
    have hnonneg := m.value_nonneg
    have hsize : m.value = n.natAbs := by
      rw [Nat.cast_natAbs, Int.cast_abs, ← hvalue]
      split
      · rw [abs_neg, abs_of_nonneg hnonneg]
      · rw [abs_of_nonneg hnonneg]
    rw [Magnitude.display_whole hsize hn] at hsigned hplain
    apply String.toList_inj.mp
    by_cases hs : signed negative m
    · -- behind the sign stands a size that is not zero
      have hpos : 0 < m.value := hnonneg.lt_of_ne' (mt m.value_eq_zero_iff.mp hs.2)
      rw [if_pos hs.1] at hvalue
      have hneg : n < 0 := by
        have hcast : (n : ℚ) < 0 := by linarith
        exact_mod_cast hcast
      have hn' : n = -(n.natAbs : ℤ) := by omega
      rw [hsigned hs]
      conv_rhs => rw [hn', toList_toString_neg (by omega)]
      rfl
    · have hcast : (0 : ℚ) ≤ n := by
        rw [← hvalue]
        split
        · next hnegative =>
          have hzero : m.significand = 0 := by
            by_contra hne
            exact hs ⟨hnegative, hne⟩
          rw [m.value_eq_zero_iff.mpr hzero, neg_zero]
        · exact hnonneg
      have hn' : n = (n.natAbs : ℤ) := by
        have hnonneg : 0 ≤ n := by exact_mod_cast hcast
        omega
      rw [hplain hs]
      conv_rhs => rw [hn', toList_toString_nat]
      rfl
  · cases h

/-- A run of digits, behind a sign or without one. -/
def IsDigitRun (text : String) : Prop :=
  ∃ digits, Digits digits ∧ (text.toList = digits ∨ text.toList = '-' :: digits)

theorem no_sign_of_digits {digits rest : List Char} (h : Digits digits) : digits ≠ '-' :: rest := by
  rintro rfl
  exact absurd (h.digit '-' List.mem_cons_self) (by decide)

/-- A whole number has a sign if it is negative. -/
theorem int_cases (n : ℤ) : (∃ k : ℕ, n = k) ∨ ∃ k : ℕ, 0 < k ∧ n = -k := by
  rcases lt_or_ge n 0 with hneg | hnonneg
  · exact Or.inr ⟨n.natAbs, by omega, by omega⟩
  · exact Or.inl ⟨n.natAbs, by omega⟩

theorem digits_toString (n : ℤ) : IsDigitRun (toString n) := by
  rcases int_cases n with ⟨k, rfl⟩ | ⟨k, hk, rfl⟩
  · exact ⟨_, digits_digitChars k, Or.inl (toList_toString_nat k)⟩
  · exact ⟨_, digits_digitChars k, Or.inr (toList_toString_neg hk)⟩

/-- The digits of a whole number denote it. -/
theorem natural_of_toString {n : ℤ} {digits : List Char} (h : Digits digits) :
    ((toString n).toList = digits → (n : ℚ) = natural digits) ∧
      ((toString n).toList = '-' :: digits → (n : ℚ) = -natural digits) := by
  rcases int_cases n with ⟨k, rfl⟩ | ⟨k, hk, rfl⟩
  · rw [toList_toString_nat]
    constructor
    · rintro rfl
      rw [natural_digitChars, Int.cast_natCast]
    · intro hsign
      exact absurd hsign (no_sign_of_digits (digits_digitChars k))
  · rw [toList_toString_neg hk]
    constructor
    · rintro rfl
      exact absurd rfl (no_sign_of_digits h)
    · intro hsign
      rw [← (List.cons.inj hsign).2, natural_digitChars, Int.cast_neg, Int.cast_natCast]

/-- Plain digits are what whole numbers below 10^21 are shown by. -/
theorem isDigitRun_display_iff {x : Float} (h : x.isNaN = false) :
    IsDigitRun (display x) ↔ ∃ n : ℤ, value? x = some (n : ℚ) ∧ n.natAbs < wholeLimit := by
  constructor
  · rintro ⟨digits, hdigits, htext⟩
    rcases view_cases h with ⟨s, hview, -⟩ | ⟨s, size, hview, -⟩
    · -- the words begin with no digit and no sign before one
      rw [display_infinite hview] at htext
      have hletter : 'I' ∈ digits := by
        cases s <;> rcases htext with rfl | htext
        · decide
        · exact absurd htext (by simp)
        · decide
        · rw [← (List.cons.inj htext).2]
          decide
      exact absurd (hdigits.digit 'I' hletter) (by decide)
    · obtain ⟨hsigned, hplain⟩ := toList_display_of_finite hview
      obtain ⟨q, hq, -⟩ := (Magnitude.ofBits size).display_unsigned
      have hsize : Digits (Magnitude.ofBits size).display.toList := by
        by_cases hs : signed s (Magnitude.ofBits size)
        · rw [hsigned hs] at htext
          rcases htext with rfl | htext
          · exact absurd rfl (no_sign_of_digits hdigits)
          · rwa [(List.cons.inj htext).2]
        · rw [hplain hs] at htext
          rcases htext with rfl | htext
          · exact hdigits
          · exact absurd htext (no_sign_of_unsigned hq)
      obtain ⟨k, hvalue, hk⟩ := (Magnitude.digits_display_iff _).mp hsize
      unfold value?
      rw [hview]
      dsimp only
      rw [hvalue]
      cases s with
      | false => exact ⟨k, by simp, by simpa using hk⟩
      | true => exact ⟨-k, by simp, by simpa using hk⟩
  · rintro ⟨n, hvalue, hn⟩
    rw [display_integer hvalue hn]
    exact digits_toString n

/-- What the texts of numbers tell: two numbers have the same text exactly if they are
equal, so that only the two zeros share a text. A run of digits, behind a sign or
without one, is the text of a finite whole number below 10^21 in size, and of nothing
else; its digits denote that number exactly. No number has the text of what is none. -/
theorem display_tells {a b : Float} (ha : a.isNaN = false) (hb : b.isNaN = false) :
    (display a = display b ↔ (a == b) = true) ∧
    (display a = display b → a = b ∨ value? a = some 0 ∧ value? b = some 0) ∧
    (IsDigitRun (display a) ↔ ∃ n : ℤ, value? a = some (n : ℚ) ∧ n.natAbs < 10 ^ 21) ∧
    (∀ digits, Digits digits →
      ((display a).toList = digits → value? a = some (natural digits : ℚ)) ∧
      ((display a).toList = '-' :: digits → value? a = some (-natural digits : ℚ))) ∧
    ∀ c : Float, c.isNaN = true → display a ≠ display c := by
  have hbits := display_eq_iff_bits ha hb
  refine ⟨?_, ?_, isDigitRun_display_iff ha, ?_, ?_⟩
  · rw [hbits, beq_iff ha hb]
  · intro h
    rcases hbits.mp h with heq | ⟨hzero, hzero'⟩
    · exact Or.inl heq
    · exact Or.inr ⟨value?_of_zero ha hzero, value?_of_zero hb hzero'⟩
  · intro digits hdigits
    have hinteger (hrun : IsDigitRun (display a)) :
        ∃ n : ℤ, value? a = some (n : ℚ) ∧ display a = toString n := by
      obtain ⟨n, hvalue, hn⟩ := (isDigitRun_display_iff ha).mp hrun
      exact ⟨n, hvalue, display_integer hvalue hn⟩
    constructor
    · intro htext
      obtain ⟨n, hvalue, hshown⟩ := hinteger ⟨digits, hdigits, Or.inl htext⟩
      rw [hshown] at htext
      rw [hvalue, (natural_of_toString hdigits).1 htext]
    · intro htext
      obtain ⟨n, hvalue, hshown⟩ := hinteger ⟨digits, hdigits, Or.inr htext⟩
      rw [hshown] at htext
      rw [hvalue, (natural_of_toString hdigits).2 htext]
  · intro c hc
    rw [display_nan hc]
    rcases view_cases ha with ⟨s, hview, -⟩ | ⟨s, size, hview, -⟩
    · rw [display_infinite hview]
      cases s <;> decide
    · exact (display_ne_word hview).1

/-- The doubles next to each other at the limit, of which only the lower one is shown by
its digits. -/
theorem display_tells_limit :
    (ofNat 999999999999999868928).isNaN = false ∧ (ofNat 1000000000000000000000).isNaN = false ∧
      display (ofNat 999999999999999868928) = "999999999999999868928" ∧
      display (ofNat 999999999999999868928) ≠ display (ofNat 1000000000000000000000) ∧
      ¬ IsDigitRun (display (ofNat 1000000000000000000000)) := by
  have hlower : (ofNat 999999999999999868928).isNaN = false :=
    not_isNaN_ofBits (by decide +kernel)
  have hupper : (ofNat 1000000000000000000000).isNaN = false :=
    not_isNaN_ofBits (by decide +kernel)
  refine ⟨hlower, hupper, by decide +kernel, ?_, ?_⟩
  · rw [ne_eq, (display_tells hlower hupper).1]
    decide +kernel
  · rw [(display_tells hupper hlower).2.2.1]
    have hvalue : value? (ofNat 1000000000000000000000) = some ((10 ^ 21 : ℤ) : ℚ) := by
      decide +kernel
    rintro ⟨n, hn, hlt⟩
    rw [hvalue, Option.some.injEq, Int.cast_inj] at hn
    rw [← hn] at hlt
    exact absurd hlt (by decide)

end Crafter.Number
