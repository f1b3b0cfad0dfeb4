import Crafter.Proofs.Words
import Mathlib.Data.Nat.Log

/-! Operands of expressions: what a text yields that is a number or a name, why any
other text is rejected, and which blanks go when an operand is trimmed. A number has
the double of the literal that it is spelt as, also beyond the range of doubles. -/
namespace Crafter

namespace Number

theorem ne_zero_of_top {n k : Nat} (low : 2 ^ 54 * 2 ^ k - 2 ^ k ≤ n) : n ≠ 0 := by
  have hunit : 0 < 2 ^ k := Nat.two_pow_pos k
  omega

theorem log2_eq_of_top {n k : Nat} (low : 2 ^ 54 * 2 ^ k - 2 ^ k ≤ n) (high : n.log2 < 54 + k) :
    n.log2 = 53 + k := by
  have hhalf : 2 ^ (53 + k) = 2 ^ 53 * 2 ^ k := Nat.pow_add 2 53 k
  have hge : ¬ n.log2 < 53 + k := by
    rw [Nat.log2_lt (ne_zero_of_top low), hhalf]
    omega
  omega

/-- Half a unit below the next power of two, a number rounds up to that. -/
theorem shiftRounding_of_top {n k : Nat} (low : 2 ^ 54 * 2 ^ k - 2 ^ k ≤ n)
    (high : n.log2 < 54 + k) : shiftRounding n (k + 1) = 2 ^ 53 := by
  have hlt : n < 2 ^ 54 * 2 ^ k := by
    rw [← Nat.pow_add]
    exact (Nat.log2_lt (ne_zero_of_top low)).mp high
  have hunit : Nat.pow 2 (k + 1) = 2 * 2 ^ k := Nat.pow_succ'
  unfold shiftRounding
  dsimp only
  rw [hunit]
  generalize 2 ^ k = unit at low hlt
  have hquotient : n / (2 * unit) = 2 ^ 53 - 1 := by
    apply Nat.div_eq_of_lt_le <;> omega
  have hsplit := Nat.div_add_mod n (2 * unit)
  rw [hquotient] at hsplit ⊢
  have hbelow : 2 * unit ≤ 2 * (n % (2 * unit)) := by omega
  rw [if_neg (by omega)]
  split <;> rfl

theorem bitsOfNat_of_overflow {n : Nat} (h : Literal.overflow ≤ n) :
    bitsOfNat n = infinityBits := by
  have hoverflow : Literal.overflow = 2 ^ 54 * 2 ^ 970 - 2 ^ 970 := by decide +kernel
  rw [hoverflow] at h
  unfold bitsOfNat
  rw [if_neg (ne_zero_of_top h)]
  by_cases htop : 1024 ≤ n.log2
  · exact if_pos htop
  · have high : n.log2 < 54 + 970 := Nat.lt_of_not_le htop
    dsimp only
    rw [if_neg htop, log2_eq_of_top h high, if_neg (by decide)]
    change _ + shiftRounding n (970 + 1) = _
    rw [shiftRounding_of_top h high]
    rfl

/-- A literal has the same value in a condition and in an expression. -/
theorem ofNat_of_denotes {digits : List Char} {value : Literal} (h : Source.Denotes digits value) :
    ofNat (Source.decimal digits) = value.toFloat := by
  cases h with
  | exact => rfl
  | infinite large =>
    unfold ofNat
    rw [bitsOfNat_of_overflow large]
    rfl

end Number

namespace Text

theorem dropWhile_append_of_mem {p : Char → Bool} {front : List Char} {c : Char}
    (hc : c ∈ front) (hp : p c = false) (back : List Char) :
    (front ++ back).dropWhile p = front.dropWhile p ++ back := by
  rw [List.dropWhile_append, if_neg]
  rw [List.isEmpty_iff, List.dropWhile_eq_nil_iff]
  intro hall
  rw [hall c hc] at hp
  cases hp

/-- What stands between two characters that are not blank stays when the blanks at
either end go. -/
theorem mem_trim_of_between {front back : List Char} {b c d : Char} (hb : b ∈ front)
    (hbsolid : isBlank b = false) (hd : d ∈ back) (hdsolid : isBlank d = false) :
    c ∈ trim (front ++ c :: back) := by
  unfold trim trimBy
  have hback : d ∈ back.reverse := List.mem_reverse.mpr hd
  rw [dropWhile_append_of_mem hb hbsolid, List.reverse_append, List.reverse_cons,
    List.append_assoc, dropWhile_append_of_mem hback hdsolid]
  simp

theorem mem_dropWhile_of_fails {p : Char → Bool} {text : List Char} {c : Char} (hc : c ∈ text)
    (hp : p c = false) : c ∈ text.dropWhile p := by
  have hsplit : c ∈ text.takeWhile p ++ text.dropWhile p := by
    rwa [List.takeWhile_append_dropWhile]
  rcases List.mem_append.mp hsplit with hc | hc
  · rw [List.mem_takeWhile_imp hc] at hp
    cases hp
  · exact hc

theorem mem_trim_of_solid {text : List Char} {c : Char} (hc : c ∈ text)
    (hsolid : isBlank c = false) : c ∈ trim text := by
  have hstart : c ∈ text.dropWhile isBlank := mem_dropWhile_of_fails hc hsolid
  unfold trim trimBy
  rw [List.mem_reverse]
  exact mem_dropWhile_of_fails (List.mem_reverse.mpr hstart) hsolid

theorem trim_cons_blank (text : List Char) : trim (' ' :: text) = trim text := by
  unfold trim trimBy
  rw [List.dropWhile_cons_of_pos (by decide)]

theorem dropWhile_of_solid {text : List Char} (h : ∀ c ∈ text, isBlank c = false) :
    text.dropWhile isBlank = text := by
  cases text with
  | nil => rfl
  | cons c text =>
    rw [List.dropWhile_cons_of_neg]
    rw [h c List.mem_cons_self]
    exact Bool.false_ne_true

theorem trim_of_solid {text : List Char} (h : ∀ c ∈ text, isBlank c = false) :
    trim text = text := by
  unfold trim trimBy
  rw [dropWhile_of_solid h, dropWhile_of_solid fun c hc => h c (List.mem_reverse.mp hc),
    List.reverse_reverse]

theorem trim_append_blank {text : List Char} (h : ∀ c ∈ text, isBlank c = false) :
    trim (text ++ [' ']) = text := by
  cases text with
  | nil => decide
  | cons c text =>
    have hreverse : ∀ d ∈ (c :: text).reverse, isBlank d = false :=
      fun d hd => h d (List.mem_reverse.mp hd)
    unfold trim trimBy
    rw [dropWhile_append_of_mem List.mem_cons_self (h c List.mem_cons_self), dropWhile_of_solid h,
      List.reverse_append, List.reverse_singleton, List.singleton_append,
      List.dropWhile_cons_of_pos (by decide), dropWhile_of_solid hreverse, List.reverse_reverse]

end Text

namespace Environment

/-- A run of digits yields its number in double precision, a run of letters the value
of the variable of that name. -/
inductive Yields (env : Environment) : List Char → Float → Prop
  | digits {text : List Char} (nonempty : text ≠ []) (digit : ∀ c ∈ text, c.isDigit = true) :
      Yields env text (Number.ofNat (Source.decimal text))
  | letters {text : List Char} {x : Float} (nonempty : text ≠ [])
      (alpha : ∀ c ∈ text, c.isAlpha = true) (bound : env.get? (String.ofList text) = some x) :
      Yields env text x

/-- Why a text yields nothing: it is empty, it is neither a run of digits nor one of
letters, or the variable has no value. -/
inductive Rejects (env : Environment) : List Char → Fault → Prop
  | missing : Rejects env [] .missingOperand
  | invalid {text : List Char} (nonempty : text ≠ []) (digit : ¬ ∀ c ∈ text, c.isDigit = true)
      (alpha : ¬ ∀ c ∈ text, c.isAlpha = true) :
      Rejects env text (.invalidOperand (String.ofList text))
  | undefined {text : List Char} (nonempty : text ≠ []) (alpha : ∀ c ∈ text, c.isAlpha = true)
      (unbound : env.get? (String.ofList text) = none) :
      Rejects env text (.undefined (String.ofList text))

variable {env : Environment}

theorem ofDigits?_of_digits {text : List Char} (nonempty : text ≠ [])
    (digit : ∀ c ∈ text, c.isDigit = true) :
    Number.ofDigits? text = some (Number.ofNat (Source.decimal text)) := by
  unfold Number.ofDigits?
  rw [if_pos ⟨nonempty, List.all_eq_true.mpr digit⟩, Source.digitsValue_eq_decimal]

theorem ofDigits?_of_other {text : List Char} (digit : ¬ ∀ c ∈ text, c.isDigit = true) :
    Number.ofDigits? text = none := by
  unfold Number.ofDigits?
  exact if_neg fun h => digit (List.all_eq_true.mp h.2)

theorem not_digits_of_letters {text : List Char} (nonempty : text ≠ [])
    (alpha : ∀ c ∈ text, c.isAlpha = true) : ¬ ∀ c ∈ text, c.isDigit = true := by
  intro digit
  obtain ⟨c, cs, rfl⟩ := List.exists_cons_of_ne_nil nonempty
  have hc := digit c List.mem_cons_self
  rw [Source.isDigit_of_isAlpha (alpha c List.mem_cons_self)] at hc
  cases hc

theorem operand_of_letters {text : List Char} (nonempty : text ≠ [])
    (alpha : ∀ c ∈ text, c.isAlpha = true) : env.operand text =
      (env.get? (String.ofList text)).elim (.error (.undefined (String.ofList text))) .ok := by
  unfold operand
  rw [ofDigits?_of_other (not_digits_of_letters nonempty alpha)]
  dsimp only
  rw [if_neg nonempty, if_pos (List.all_eq_true.mpr alpha)]
  cases env.get? (String.ofList text) <;> rfl

theorem operand_of_yields {text : List Char} {x : Float} (h : env.Yields text x) :
    env.operand text = .ok x := by
  cases h with
  | digits nonempty digit =>
    unfold operand
    rw [ofDigits?_of_digits nonempty digit]
  | letters nonempty alpha bound => simp [operand_of_letters nonempty alpha, bound]

theorem operand_of_rejects {text : List Char} {cause : Fault} (h : env.Rejects text cause) :
    env.operand text = .error cause := by
  cases h with
  | missing => rfl
  | invalid nonempty digit alpha =>
    unfold operand
    rw [ofDigits?_of_other digit]
    dsimp only
    rw [if_neg nonempty, if_neg fun h => alpha (List.all_eq_true.mp h)]
  | undefined nonempty alpha unbound => simp [operand_of_letters nonempty alpha, unbound]

/-- Every text either yields a value or is rejected. -/
theorem yields_or_rejects (env : Environment) (text : List Char) :
    (∃ x, env.Yields text x) ∨ ∃ cause, env.Rejects text cause := by
  by_cases nonempty : text = []
  · rw [nonempty]
    exact Or.inr ⟨_, .missing⟩
  by_cases digit : ∀ c ∈ text, c.isDigit = true
  · exact Or.inl ⟨_, .digits nonempty digit⟩
  by_cases alpha : ∀ c ∈ text, c.isAlpha = true
  · cases hvalue : env.get? (String.ofList text) with
    | none => exact Or.inr ⟨_, .undefined nonempty alpha hvalue⟩
    | some x => exact Or.inl ⟨x, .letters nonempty alpha hvalue⟩
  · exact Or.inr ⟨_, .invalid nonempty digit alpha⟩

theorem operand_eq_ok_iff (env : Environment) (text : List Char) (x : Float) :
    env.operand text = .ok x ↔ env.Yields text x := by
  refine ⟨fun h => ?_, operand_of_yields⟩
  rcases env.yields_or_rejects text with ⟨y, hy⟩ | ⟨cause, hcause⟩
  · rw [operand_of_yields hy] at h
    cases h
    exact hy
  · rw [operand_of_rejects hcause] at h
    cases h

theorem operand_eq_error_iff (env : Environment) (text : List Char) (cause : Fault) :
    env.operand text = .error cause ↔ env.Rejects text cause := by
  refine ⟨fun h => ?_, operand_of_rejects⟩
  rcases env.yields_or_rejects text with ⟨y, hy⟩ | ⟨other, hother⟩
  · rw [operand_of_yields hy] at h
    cases h
  · rw [operand_of_rejects hother] at h
    cases h
    exact hother

theorem alphanum_of_yields {text : List Char} {x : Float} (h : env.Yields text x) :
    ∀ c ∈ text, c.isAlphanum = true := by
  cases h with
  | digits _ digit => exact fun c hc => Bool.or_eq_true_iff.mpr (Or.inr (digit c hc))
  | letters _ alpha => exact fun c hc => Bool.or_eq_true_iff.mpr (Or.inl (alpha c hc))

theorem not_yields_nil (x : Float) : ¬ env.Yields [] x := by
  intro h
  cases h with
  | digits nonempty => exact nonempty rfl
  | letters nonempty => exact nonempty rfl

end Environment

end Crafter
