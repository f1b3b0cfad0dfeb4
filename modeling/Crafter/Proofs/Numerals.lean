import Crafter.Proofs.Doubles
import Crafter.Proofs.Scanning

/-! Numbers in a program. A condition takes the double of the number that a token
holds, an expression reads the double off the token's characters; both are the whole
number that the digits denote, rounded once. -/
namespace Crafter

namespace Number

/-- `x` is the whole number `n` in double precision: `n` with 53 significant bits, or
infinity from the least number on that is too large. -/
structure Rounds (n : Nat) (x : Float) : Prop where
  infinite : view x = .infinite false ↔ Literal.overflow ≤ n
  finite : n < Literal.overflow → ∃ size, ∃ m : Nat,
    view x = .finite false size ∧ size.value = m ∧ RoundsTo 53 n m

theorem rounds_ofNat (n : Nat) : Rounds n (ofNat n) := by
  refine ⟨⟨?_, view_ofNat_of_overflow⟩, exists_value_ofNat⟩
  intro hview
  by_contra hlt
  obtain ⟨size, m, hfinite, -, -⟩ := exists_value_ofNat (Nat.lt_of_not_le hlt)
  rw [hview] at hfinite
  cases hfinite

end Number

namespace Source

theorem decimal_zeros (zeros : Nat) (digits : List Char) :
    decimal (List.replicate zeros '0' ++ digits) = decimal digits := by
  induction zeros with
  | zero => rfl
  | succ zeros ih =>
    rw [List.replicate_succ, List.cons_append, ← ih]
    unfold decimal
    rw [List.reverse_cons, List.map_append, List.map_singleton, Nat.ofDigits_append]
    change _ + _ * Nat.ofDigits 10 [0] = _
    rw [Nat.ofDigits_singleton, Nat.mul_zero, Nat.add_zero]

/-- Leading zeros change a number only by making it too long. -/
theorem Denotes.eq_of_zeros {digits : List Char} {value other : Literal} {zeros : Nat}
    (h : Denotes digits value) (hother : Denotes (List.replicate zeros '0' ++ digits) other) :
    other = value := by
  cases hother with
  | exact finite =>
    rw [decimal_zeros] at finite ⊢
    cases h with
    | exact => rfl
    | infinite large => omega
  | infinite large =>
    rw [decimal_zeros] at large
    cases h with
    | exact finite => omega
    | infinite => rfl

namespace Denotes
variable {digits : List Char} {literal : Literal}

theorem eq_infinite_iff (h : Denotes digits literal) :
    literal = .infinite ↔ Literal.overflow ≤ decimal digits := by
  cases h with
  | exact finite => exact ⟨nofun, fun large => absurd finite (Nat.not_lt.mpr large)⟩
  | infinite large => exact ⟨fun _ => large, fun _ => rfl⟩

theorem eq_decimal {n : Nat} (h : Denotes digits (.exact n)) :
    n = decimal digits ∧ n < Literal.overflow := by
  cases h with
  | exact finite => exact ⟨rfl, finite⟩

/-- An expression reads the double that a condition takes, with leading zeros or without. -/
theorem ofDigits?_of_zeros (h : Denotes digits literal) (nonempty : digits ≠ [])
    (digit : ∀ c ∈ digits, c.isDigit = true) (zeros : Nat) :
    Number.ofDigits? (List.replicate zeros '0' ++ digits) = some literal.toFloat := by
  have hnonempty : List.replicate zeros '0' ++ digits ≠ [] :=
    fun hnil => nonempty (List.append_eq_nil_iff.mp hnil).2
  have hdigit : ∀ c ∈ List.replicate zeros '0' ++ digits, c.isDigit = true := by
    intro c hc
    rcases List.mem_append.mp hc with hzero | hrest
    · rw [List.eq_of_mem_replicate hzero]
      decide
    · exact digit c hrest
  rw [Environment.ofDigits?_of_digits hnonempty hdigit, decimal_zeros,
    Number.ofNat_of_denotes h]

end Denotes

variable {file source : String} {tokens : List Token}

/-- A number in a program is one double, in a condition as in an expression: the number
that the digits denote, rounded to 53 bits, half to even, or infinity from
`2 ^ 1024 - 2 ^ 970` on. The token holds the number itself unless it is infinite, so
what is rounded from the token is never too large. Leading zeros change nothing. -/
theorem double_of_number (h : scan file source = .ok tokens) {t : Token} (ht : t ∈ tokens)
    {literal : Literal} (hnumber : t.lexeme = .number literal) :
    ∃ x : Float,
      (∀ env : Environment,
        env.evalToken t = .ok x ∧ env.operand t.span.text.toList = .ok x) ∧
      literal.toFloat = x ∧ Number.ofDigits? t.span.text.toList = some x ∧
      Number.Rounds (decimal t.span.text.toList) x ∧
      (literal = .infinite ↔ Literal.overflow ≤ decimal t.span.text.toList) ∧
      (∀ n, literal = .exact n → n = decimal t.span.text.toList ∧ n < Literal.overflow) ∧
      ∀ zeros,
        Number.ofDigits? (List.replicate zeros '0' ++ t.span.text.toList) = some x ∧
        ∀ other, Literal.ofDigits? (List.replicate zeros '0' ++ t.span.text.toList) = some other →
          other = literal := by
  have hspelt := wellSpelt_of_scan file h t ht
  unfold Token.WellSpelt at hspelt
  rw [hnumber] at hspelt
  generalize t.span.text.toList = digits at hspelt ⊢
  cases hspelt with
  | number _ nonempty digit _ denotes =>
    have hdouble := Number.ofNat_of_denotes denotes
    have hzeros := denotes.ofDigits?_of_zeros nonempty digit
    refine ⟨literal.toFloat, fun env => ⟨?_, ?_⟩, rfl, hzeros 0, ?_, denotes.eq_infinite_iff, ?_,
      fun zeros => ⟨hzeros zeros, ?_⟩⟩
    · unfold Environment.evalToken
      rw [hnumber]
    · rw [← hdouble]
      exact Environment.operand_of_yields (.digits nonempty digit)
    · rw [← hdouble]
      exact Number.rounds_ofNat _
    · rintro n rfl
      exact denotes.eq_decimal
    · intro other hother
      exact denotes.eq_of_zeros ((ofDigits?_eq_some_iff _ _).mp hother)

/-- Half way between two doubles the even one is taken. -/
theorem double_of_number_half_way :
    ∃ x size, (∀ env : Environment, env.operand "9007199254740993".toList = .ok x) ∧
      Number.view x = .finite false size ∧ size.value = (9007199254740992 : Nat) := by
  have hscan : scan "notes" "9007199254740993" = .ok [⟨.number (.exact 9007199254740993),
      .ofChars "notes" .first "9007199254740993".toList⟩] := by decide +kernel
  obtain ⟨x, hx, -, -, hrounds, -⟩ := double_of_number hscan List.mem_cons_self rfl
  have hdecimal : decimal (Span.ofChars "notes" .first "9007199254740993".toList).text.toList =
      9007199254740993 := by decide +kernel
  rw [hdecimal] at hrounds
  obtain ⟨size, m, hview, hvalue, hm⟩ := hrounds.finite (by decide +kernel)
  have hbetween : Number.Neighbours 53 1 4503599627370496 9007199254740993 := by
    constructor <;> decide
  have hround : Number.RoundsTo 53 9007199254740993 (4503599627370496 * 2 ^ 1) := by
    apply hbetween.roundsTo (by decide)
    exact Or.inr (Or.inl ⟨by decide, rfl⟩)
  have heven : m = 9007199254740992 := hm.unique (by decide) hround
  exact ⟨x, size, fun env => (hx env).2, hview, by rw [hvalue, heven]⟩

end Source

end Crafter
