import Crafter.Number.Display
import Crafter.Proofs.JsonReading
import Crafter.Proofs.Nearest

/-! What a decimal says as it is written. With a point or with a power of ten, it is a
numeral for the number that the decimal is, and it is no plain run of digits. -/
namespace Crafter.Number

open JsonText

/-- The digits of a positive number, from the first one on. -/
structure Leading (cs : List Char) : Prop extends Digits cs where
  head : cs.head? ≠ some '0'

theorem Leading.whole {cs : List Char} (h : Leading cs) : Whole cs where
  toDigits := h.toDigits
  leading hzero := absurd hzero h.head

theorem natural_append (ds es : List Char) :
    natural (ds ++ es) = natural ds * 10 ^ es.length + natural es := by
  unfold natural
  rw [Nat.ofDigitChars_append, Nat.ofDigitChars_eq_ofDigitChars_zero, Nat.mul_comm]

theorem natural_zeros (count : Nat) : natural (zeros count) = 0 := by
  unfold natural zeros
  rw [Nat.ofDigitChars_replicate_zero, Nat.mul_zero]

theorem natural_zero : natural ['0'] = 0 := by
  have h := natural_zeros 1
  rwa [zeros, List.replicate_one] at h

theorem digits_zero : Digits ['0'] :=
  ⟨List.cons_ne_nil _ _, List.forall_mem_singleton.mpr (by decide)⟩

theorem natural_zeros_append (count : Nat) (ds : List Char) :
    natural (zeros count ++ ds) = natural ds := by
  rw [natural_append, natural_zeros, Nat.zero_mul, Nat.zero_add]

theorem length_zeros (count : Nat) : (zeros count).length = count := List.length_replicate

theorem isDigit_of_mem_zeros {count : Nat} {c : Char} (h : c ∈ zeros count) : c.isDigit = true := by
  rw [List.eq_of_mem_replicate h]
  decide

theorem digits_append {ds es : List Char} (h : Digits ds) (hes : ∀ c ∈ es, c.isDigit = true) :
    Digits (ds ++ es) where
  nonempty hnil := h.nonempty (List.append_eq_nil_iff.mp hnil).1
  digit := List.forall_mem_append.mpr ⟨h.digit, hes⟩

theorem zeros_append_digits (count : Nat) {ds : List Char} (h : Digits ds) :
    Digits (zeros count ++ ds) where
  nonempty hnil := h.nonempty (List.append_eq_nil_iff.mp hnil).2
  digit := List.forall_mem_append.mpr ⟨fun _ => isDigit_of_mem_zeros, h.digit⟩

theorem leading_append {ds es : List Char} (h : Leading ds) (hes : ∀ c ∈ es, c.isDigit = true) :
    Leading (ds ++ es) where
  toDigits := digits_append h.toDigits hes
  head := by
    obtain ⟨c, rest, rfl⟩ := List.exists_cons_of_ne_nil h.nonempty
    exact h.head

/-- All digits of a number are those without the zeros at the end, and these zeros. -/
theorem exists_zeros (digits : List Char) :
    ∃ count, digits = dropTrailingZeros digits ++ zeros count := by
  let ends := digits.reverse.takeWhile (· = '0')
  have hzero : ∀ c ∈ ends, c = '0' := by
    intro c hc
    simpa using List.mem_takeWhile_imp hc
  have hends : ends = zeros ends.length := List.eq_replicate_iff.mpr ⟨rfl, hzero⟩
  have hsplit : digits = dropTrailingZeros digits ++ ends.reverse := by
    unfold dropTrailingZeros
    rw [← List.reverse_append, List.takeWhile_append_dropWhile, List.reverse_reverse]
  refine ⟨ends.length, hsplit.trans ?_⟩
  rw [hends, zeros, List.reverse_replicate, zeros, List.length_replicate]

theorem leading_dropTrailingZeros {digits : List Char} (h : Leading digits) :
    Leading (dropTrailingZeros digits) := by
  obtain ⟨count, hsplit⟩ := exists_zeros digits
  have hhead := h.head
  have hdigit := h.digit
  have hnonempty := h.nonempty
  generalize dropTrailingZeros digits = front at hsplit ⊢
  subst hsplit
  cases front with
  | nil =>
    cases count with
    | zero => exact absurd rfl hnonempty
    | succ count => exact absurd rfl hhead
  | cons c front =>
    refine ⟨⟨List.cons_ne_nil c front, fun d hd => ?_⟩, hhead⟩
    exact hdigit d (List.mem_append_left _ hd)

theorem digitChars_eq (n : Nat) : digitChars n = Nat.toDigits 10 n := Nat.toList_repr

theorem digits_digitChars (n : Nat) : Digits (digitChars n) := by
  rw [digitChars_eq]
  exact (Json.whole_toDigits n).toDigits

theorem leading_digitChars {n : Nat} (h : 0 < n) : Leading (digitChars n) where
  toDigits := digits_digitChars n
  head := by
    rw [digitChars_eq]
    exact Json.toDigits_head_ne_zero h

theorem natural_digitChars (n : Nat) : natural (digitChars n) = n := by
  rw [natural, digitChars_eq, Nat.ofDigitChars_ten_toDigits]

/-! A point after the digits of the whole part. -/

theorem positional_small {ds : List Char} (h : Leading ds) {point : ℤ} (hpoint : point ≤ 0) :
    Unsigned (positional ds point) (natural ds * 10 ^ (point - ds.length)) := by
  have hzero : Whole ['0'] := ⟨digits_zero, fun _ => rfl⟩
  have hfraction := Fraction.some (zeros_append_digits (-point).toNat h.toDigits)
  have hnumeral := Unsigned.mk hzero hfraction .none
  have hlength : ((zeros (-point).toNat ++ ds).length : ℤ) = -(point - ds.length) := by
    rw [List.length_append, length_zeros]
    omega
  have hvalue : ((natural ['0'] : ℚ) + natural (zeros (-point).toNat ++ ds) /
      10 ^ (zeros (-point).toNat ++ ds).length) * 10 ^ (0 : ℤ) =
        natural ds * 10 ^ (point - ds.length) := by
    rw [natural_zeros_append, ← zpow_natCast, hlength, zpow_neg, div_inv_eq_mul, zpow_zero,
      mul_one, natural_zero, Nat.cast_zero, zero_add]
  rw [← hvalue]
  unfold positional
  rw [if_pos hpoint]
  rwa [List.append_nil] at hnumeral

theorem positional_large {ds : List Char} (h : Leading ds) {point : ℤ} (hpoint : 0 < point)
    (hlarge : ds.length ≤ point) :
    Unsigned (positional ds point) (natural ds * 10 ^ (point - ds.length)) := by
  have hzeros : ∀ c ∈ zeros (point.toNat - ds.length), c.isDigit = true :=
    fun _ => isDigit_of_mem_zeros
  have hwhole := (leading_append h hzeros).whole
  have hfraction := Fraction.some digits_zero
  have hnumeral := Unsigned.mk hwhole hfraction .none
  have hlength : ((point.toNat - ds.length : Nat) : ℤ) = point - ds.length := by omega
  have hvalue : ((natural (ds ++ zeros (point.toNat - ds.length)) : ℚ) +
      natural ['0'] / 10 ^ ['0'].length) * 10 ^ (0 : ℤ) =
        natural ds * 10 ^ (point - ds.length) := by
    rw [natural_append, natural_zeros, length_zeros, natural_zero, ← hlength, zpow_natCast,
      zpow_zero]
    push_cast
    ring
  rw [← hvalue]
  unfold positional
  rw [if_neg (not_le.mpr hpoint), if_pos hlarge]
  rwa [List.append_nil] at hnumeral

theorem positional_between {ds : List Char} (h : Leading ds) {point : ℤ} (hpoint : 0 < point)
    (hsmall : point < ds.length) :
    Unsigned (positional ds point) (natural ds * 10 ^ (point - ds.length)) := by
  have hcut : 0 < point.toNat ∧ point.toNat < ds.length := by omega
  have hfront : Leading (ds.take point.toNat) := by
    refine ⟨⟨?_, fun c hc => h.digit c (List.mem_of_mem_take hc)⟩, ?_⟩
    · intro hnil
      have hlength := congrArg List.length hnil
      rw [List.length_take, List.length_nil] at hlength
      omega
    · rw [List.head?_take, if_neg (by omega)]
      exact h.head
  have hback : Digits (ds.drop point.toNat) := by
    refine ⟨?_, fun c hc => h.digit c (List.mem_of_mem_drop hc)⟩
    intro hnil
    have hlength := congrArg List.length hnil
    rw [List.length_drop, List.length_nil] at hlength
    omega
  have hnumeral := Unsigned.mk hfront.whole (.some hback) .none
  have hlength : ((ds.drop point.toNat).length : ℤ) = -(point - ds.length) := by
    rw [List.length_drop]
    omega
  have hnatural : natural ds =
      natural (ds.take point.toNat) * 10 ^ (ds.drop point.toNat).length +
        natural (ds.drop point.toNat) := by
    rw [← natural_append, List.take_append_drop]
  have hunit : (10 : ℚ) ^ (ds.drop point.toNat).length ≠ 0 := pow_ne_zero _ (by norm_num)
  have hvalue : ((natural (ds.take point.toNat) : ℚ) + natural (ds.drop point.toNat) /
      10 ^ (ds.drop point.toNat).length) * 10 ^ (0 : ℤ) =
        natural ds * 10 ^ (point - ds.length) := by
    rw [show point - ds.length = -((ds.drop point.toNat).length : ℤ) by omega, zpow_neg,
      zpow_natCast, hnatural, zpow_zero]
    push_cast
    field_simp
  rw [← hvalue]
  unfold positional
  rw [if_neg (not_le.mpr hpoint), if_neg (not_le.mpr hsmall)]
  rwa [List.append_nil] at hnumeral

/-- With a point after the first `point` digits, or with zeros up to the point. -/
theorem positional_unsigned {ds : List Char} (h : Leading ds) (point : ℤ) :
    Unsigned (positional ds point) (natural ds * 10 ^ (point - ds.length)) := by
  by_cases hpoint : point ≤ 0
  · exact positional_small h hpoint
  by_cases hlarge : ds.length ≤ point
  · exact positional_large h (not_le.mp hpoint) hlarge
  · exact positional_between h (not_le.mp hpoint) (not_le.mp hlarge)

/-! A power of ten. -/

theorem exponent_written (exponent : ℤ) :
    Exponent ('e' :: (if exponent < 0 then '-' else '+') ::
      zeros (2 - (digitChars exponent.natAbs).length) ++ digitChars exponent.natAbs) exponent := by
  have hdigits := zeros_append_digits (2 - (digitChars exponent.natAbs).length)
    (digits_digitChars exponent.natAbs)
  have hnatural : natural (zeros (2 - (digitChars exponent.natAbs).length) ++
      digitChars exponent.natAbs) = exponent.natAbs := by
    rw [natural_zeros_append, natural_digitChars]
  by_cases hsign : exponent < 0
  · have hminus := Signed.minus hdigits
    rw [hnatural, show -(exponent.natAbs : ℤ) = exponent by omega] at hminus
    rw [if_pos hsign]
    exact .some (by decide) hminus
  · have hplus := Signed.plus hdigits
    rw [hnatural, show (exponent.natAbs : ℤ) = exponent by omega] at hplus
    rw [if_neg hsign]
    exact .some (by decide) hplus

theorem scientific_unsigned {ds : List Char} (h : Leading ds) (exponent : ℤ) :
    Unsigned (scientific ds exponent) (natural ds * 10 ^ (exponent + 1 - ds.length)) := by
  have hexponent := exponent_written exponent
  obtain ⟨first, more, rfl⟩ := List.exists_cons_of_ne_nil h.nonempty
  have hfirst : Whole [first] := by
    refine ⟨⟨List.cons_ne_nil _ _, ?_⟩, fun hzero => ?_⟩
    · exact List.forall_mem_singleton.mpr (h.digit first List.mem_cons_self)
    · exact absurd hzero h.head
  cases more with
  | nil =>
    have hnumeral := Unsigned.mk hfirst .none hexponent
    have hvalue : ((natural [first] : ℚ) + 0) * 10 ^ exponent =
        natural [first] * 10 ^ (exponent + 1 - ([first].length : Nat)) := by
      rw [add_zero, List.length_singleton]
      congr 2
      omega
    rw [← hvalue]
    exact hnumeral
  | cons second more =>
    have hmore : Digits (second :: more) :=
      ⟨List.cons_ne_nil _ _, fun c hc => h.digit c (List.mem_cons_of_mem _ hc)⟩
    have hnumeral := Unsigned.mk hfirst (.some hmore) hexponent
    have hnatural : natural (first :: second :: more) =
        natural [first] * 10 ^ (second :: more).length + natural (second :: more) :=
      natural_append [first] (second :: more)
    have hunit : (10 : ℚ) ^ (second :: more).length ≠ 0 := pow_ne_zero _ (by norm_num)
    have hpower : (10 : ℚ) ^ (exponent + 1 - (first :: second :: more).length) =
        10 ^ exponent / 10 ^ (second :: more).length := by
      rw [← zpow_natCast, ← zpow_sub₀ (by norm_num)]
      congr 1
      rw [List.length_cons, List.length_cons]
      omega
    have hvalue : ((natural [first] : ℚ) + natural (second :: more) /
        10 ^ (second :: more).length) * 10 ^ exponent =
          natural (first :: second :: more) *
            10 ^ (exponent + 1 - ((first :: second :: more).length : Nat)) := by
      rw [hpower, hnatural]
      push_cast
      field_simp
    rw [← hvalue]
    unfold scientific
    dsimp only
    rw [List.append_assoc]
    exact hnumeral

namespace Decimal

/-- The digits without the zeros at their end, and where the point stands after them. -/
theorem value_eq (d : Decimal) : d.value =
    natural (dropTrailingZeros (digitChars d.digits)) *
      10 ^ (((digitChars d.digits).length : ℤ) + d.exponent -
        (dropTrailingZeros (digitChars d.digits)).length) := by
  obtain ⟨count, hsplit⟩ := exists_zeros (digitChars d.digits)
  have hlength := congrArg List.length hsplit
  have hnatural := congrArg natural hsplit
  rw [List.length_append, length_zeros] at hlength
  rw [natural_digitChars, natural_append, natural_zeros, length_zeros, Nat.add_zero] at hnatural
  generalize dropTrailingZeros (digitChars d.digits) = ds at hlength hnatural ⊢
  have hpower : ((digitChars d.digits).length : ℤ) + d.exponent - ds.length =
      count + d.exponent := by omega
  unfold value
  rw [hpower, zpow_add₀ (by norm_num), zpow_natCast, hnatural]
  push_cast
  ring

/-- A positive decimal as it is written is a numeral for its value. -/
theorem write_unsigned {d : Decimal} (h : 0 < d.digits) : Unsigned d.write d.value := by
  have hleading := leading_dropTrailingZeros (leading_digitChars h)
  rw [value_eq]
  unfold write
  dsimp only
  split
  · exact positional_unsigned hleading _
  · have hnumeral := scientific_unsigned hleading
      (((digitChars d.digits).length : ℤ) + d.exponent - 1)
    rwa [sub_add_cancel] at hnumeral

/-- A decimal is written with a point or with a power of ten. -/
theorem write_not_digits (d : Decimal) : ¬ Digits d.write := by
  intro hdigits
  have hpoint (ds : List Char) (point : ℤ) : '.' ∈ positional ds point := by
    unfold positional
    split_ifs <;> simp
  have hpower (ds : List Char) (exponent : ℤ) : 'e' ∈ scientific ds exponent := by
    unfold scientific
    simp
  unfold write at hdigits
  dsimp only at hdigits
  split at hdigits
  · exact absurd (hdigits.digit '.' (hpoint _ _)) (by decide)
  · exact absurd (hdigits.digit 'e' (hpower _ _)) (by decide)

end Decimal

end Crafter.Number
