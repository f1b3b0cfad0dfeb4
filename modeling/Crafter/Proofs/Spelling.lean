import Crafter.Source.Scan
import Mathlib.Data.List.Induction
import Mathlib.Data.Nat.Digits.Defs

/-! How tokens are spelt, apart from how they are read: the classes of tokens,
which characters a token could still take in, and where no token starts. -/
namespace Crafter.Source
attribute [local irreducible] Literal.overflow

/-- The number that a run of digits is in decimal notation. -/
def decimal (digits : List Char) : Nat := Nat.ofDigits 10 (digits.reverse.map digitValue)

/-- The value of a digit run: exact if it is written with at most 4300 digits,
infinite if it lies beyond double precision. -/
inductive Denotes (digits : List Char) : Literal → Prop where
  | exact (finite : decimal digits < Literal.overflow) (short : digits.length ≤ 4300) :
      Denotes digits (.exact (decimal digits))
  | infinite (large : Literal.overflow ≤ decimal digits) : Denotes digits .infinite

def gapCharacters : List Char := [' ', '\t', '\r', '\n']

def operatorCharacters : List Char := ['+', '-', '*', '/', '=', '<', '>', '!']

/-- The characters of a token and what they say. -/
inductive Spelt : List Char → Lexeme → Prop where
  | string (body : List Char) (closed : '"' ∉ body) :
      Spelt ('"' :: (body ++ ['"'])) (.string (String.ofList body))
  | keyword (letters : List Char) (nonempty : letters ≠ [])
      (alpha : ∀ c ∈ letters, c.isAlpha = true) (word : Keyword)
      (same : word.spelling = String.ofList letters) : Spelt letters (.keyword word)
  | identifier (letters : List Char) (nonempty : letters ≠ [])
      (alpha : ∀ c ∈ letters, c.isAlpha = true)
      (other : ∀ word : Keyword, word.spelling ≠ String.ofList letters) :
      Spelt letters (.identifier (String.ofList letters))
  | number (digits : List Char) (nonempty : digits ≠ []) (digit : ∀ c ∈ digits, c.isDigit = true)
      (value : Literal) (denotes : Denotes digits value) : Spelt digits (.number value)
  | operator (c : Char) (start : c ∈ operatorCharacters) :
      Spelt [c] (.operator (String.ofList [c]))
  | compound (c : Char) (start : c ∈ operatorCharacters) :
      Spelt [c, '='] (.operator (String.ofList [c, '=']))
  | opening : Spelt ['\x7b'] (.brace .opening)
  | closing : Spelt ['\x7d'] (.brace .closing)

/-- The character could belong to the letter run, digit run or operator before
it. -/
inductive Extends : List Char → Char → Prop where
  | letter {letters : List Char} {c : Char} (alpha : ∀ d ∈ letters, d.isAlpha = true)
      (next : c.isAlpha = true) : Extends letters c
  | digit {digits : List Char} {c : Char} (digit : ∀ d ∈ digits, d.isDigit = true)
      (next : c.isDigit = true) : Extends digits c
  | equals {c : Char} (start : c ∈ operatorCharacters) : Extends [c] '='

/-- No token begins with the character. -/
def Stray (c : Char) : Prop :=
  c.isAlpha = false ∧ c.isDigit = false ∧ c ∉ ['"', '{', '}'] ++ operatorCharacters

/-- The text begins with no token, for the given reason. -/
inductive Obstructs : List Char → Obstacle → Prop where
  | openString (cs : List Char) (unclosed : '"' ∉ cs) : Obstructs ('"' :: cs) .openString
  | numberTooLong (digits rest : List Char) (digit : ∀ c ∈ digits, c.isDigit = true)
      (longest : ∀ c ∈ rest.head?, c.isDigit = false) (long : 4300 < digits.length)
      (finite : decimal digits < Literal.overflow) :
      Obstructs (digits ++ rest) (.numberTooLong digits.length)
  | strayCharacter (c : Char) (cs : List Char) (stray : Stray c) (solid : isGap c = false) :
      Obstructs (c :: cs) .strayCharacter

theorem digitsValue_eq_decimal (digits : List Char) : digitsValue digits = decimal digits := by
  induction digits using List.reverseRecOn with
  | nil => rfl
  | append_singleton digits c ih =>
    unfold digitsValue at ih ⊢
    unfold decimal at ih ⊢
    rw [List.foldl_append, ih, List.reverse_append, List.map_append]
    change 10 * _ + digitValue c = Nat.ofDigits 10 (digitValue c :: _)
    rw [Nat.ofDigits_cons, Nat.add_comm]
    rfl

theorem ofDigits?_eq (digits : List Char) :
    Literal.ofDigits? digits = if Literal.overflow ≤ decimal digits then some .infinite
      else if 4300 < digits.length then none else some (.exact (decimal digits)) := by
  rw [← digitsValue_eq_decimal]
  rfl

theorem ofDigits?_eq_some_iff (digits : List Char) (value : Literal) :
    Literal.ofDigits? digits = some value ↔ Denotes digits value := by
  rw [ofDigits?_eq]
  constructor
  · intro h
    split at h
    · next large => cases h; exact .infinite large
    split at h
    · cases h
    · next large long => cases h; exact .exact (by omega) (by omega)
  · intro h
    cases h with
    | exact finite short => rw [if_neg (by omega), if_neg (by omega)]
    | infinite large => rw [if_pos large]

theorem ofDigits?_eq_none_iff (digits : List Char) :
    Literal.ofDigits? digits = none ↔
      4300 < digits.length ∧ decimal digits < Literal.overflow := by
  rw [ofDigits?_eq]
  constructor
  · intro h
    split at h
    · cases h
    split at h
    · next large long => exact ⟨long, by omega⟩
    · cases h
  · rintro ⟨long, finite⟩
    rw [if_neg (by omega), if_pos long]

/-! What a character begins is settled by the class of the character. -/

theorem isOperatorStart_iff (c : Char) : isOperatorStart c = true ↔ c ∈ operatorCharacters := by
  change "+-*/=<>!".toList.contains c = true ↔ _
  rw [List.contains_iff_mem]
  rfl

theorem isDigit_of_isAlpha {c : Char} (h : c.isAlpha = true) : c.isDigit = false := by
  delta Char.isAlpha Char.isUpper Char.isLower at h
  delta Char.isDigit
  grind

theorem not_isAlpha_of_isDigit {c : Char} (h : c.isDigit = true) : c.isAlpha = false := by
  rw [← Bool.not_eq_true]
  intro halpha
  rw [isDigit_of_isAlpha halpha] at h
  cases h

theorem not_isAlpha_of_mem {c : Char} (h : c ∈ operatorCharacters) : c.isAlpha = false := by
  have hall : operatorCharacters.all (fun d => !d.isAlpha) = true := by decide
  simpa using List.all_eq_true.mp hall c h

theorem not_isDigit_of_mem {c : Char} (h : c ∈ operatorCharacters) : c.isDigit = false := by
  have hall : operatorCharacters.all (fun d => !d.isDigit) = true := by decide
  simpa using List.all_eq_true.mp hall c h

theorem isGap_iff (c : Char) : isGap c = true ↔ c ∈ gapCharacters := by
  simp [isGap, gapCharacters, or_assoc]

/-- Nothing that is false of the four gap characters makes a character a gap. -/
theorem not_isGap_of_all {p : Char → Bool} (hall : gapCharacters.all (fun d => !p d) = true)
    {c : Char} (h : p c = true) : isGap c = false := by
  rw [← Bool.not_eq_true, isGap_iff]
  intro hc
  have hnot := List.all_eq_true.mp hall c hc
  rw [h] at hnot
  cases hnot

theorem not_isGap_of_isAlpha {c : Char} (h : c.isAlpha = true) : isGap c = false :=
  not_isGap_of_all (by decide) h

theorem not_isGap_of_isDigit {c : Char} (h : c.isDigit = true) : isGap c = false :=
  not_isGap_of_all (by decide) h

theorem not_isGap_of_mem {c : Char} (h : c ∈ operatorCharacters) : isGap c = false :=
  not_isGap_of_all (p := isOperatorStart) (by decide) ((isOperatorStart_iff c).mpr h)

theorem character_cases (c : Char) : c = '"' ∨ c.isAlpha = true ∨ c.isDigit = true ∨
    c ∈ operatorCharacters ∨ c = '{' ∨ c = '}' ∨ Stray c := by
  by_contra h
  simp only [not_or, Bool.not_eq_true] at h
  obtain ⟨hquote, halpha, hdigit, hoperator, hopening, hclosing, hstray⟩ := h
  apply hstray
  refine ⟨halpha, hdigit, ?_⟩
  simp only [List.cons_append, List.nil_append, List.mem_cons, not_or]
  exact ⟨hquote, hopening, hclosing, hoperator⟩

theorem wordLexeme_of_keyword {text : String} {word : Keyword} (h : word.spelling = text) :
    wordLexeme text = .keyword word := by
  subst h
  cases word <;> decide

theorem ofSpelling?_eq_none {text : String} (h : ∀ word : Keyword, word.spelling ≠ text) :
    Keyword.ofSpelling? text = none := by
  apply List.find?_eq_none.mpr
  intro word _ hword
  exact h word (eq_of_beq hword)

theorem wordLexeme_of_other {text : String} (h : ∀ word : Keyword, word.spelling ≠ text) :
    wordLexeme text = .identifier text := by
  unfold wordLexeme
  rw [ofSpelling?_eq_none h]

/-! A run can be extended only by characters of its own class. -/

theorem not_extends {c : Char} {cs : List Char} (halpha : c.isAlpha = false)
    (hdigit : c.isDigit = false) (h : cs = [] → c ∉ operatorCharacters) (d : Char) :
    ¬ Extends (c :: cs) d := by
  intro he
  cases he with
  | letter alpha => rw [alpha c List.mem_cons_self] at halpha; cases halpha
  | digit digit => rw [digit c List.mem_cons_self] at hdigit; cases hdigit
  | equals start => exact h rfl start

theorem extends_letters_iff {letters : List Char} (nonempty : letters ≠ [])
    (alpha : ∀ c ∈ letters, c.isAlpha = true) (d : Char) :
    Extends letters d ↔ d.isAlpha = true := by
  refine ⟨?_, .letter alpha⟩
  intro he
  obtain ⟨c, cs, rfl⟩ := List.exists_cons_of_ne_nil nonempty
  have hc := alpha c List.mem_cons_self
  cases he with
  | letter _ next => exact next
  | digit digit =>
    have hdigit := digit c List.mem_cons_self
    rw [isDigit_of_isAlpha hc] at hdigit
    cases hdigit
  | equals start => rw [not_isAlpha_of_mem start] at hc; cases hc

theorem extends_digits_iff {digits : List Char} (nonempty : digits ≠ [])
    (digit : ∀ c ∈ digits, c.isDigit = true) (d : Char) :
    Extends digits d ↔ d.isDigit = true := by
  refine ⟨?_, .digit digit⟩
  intro he
  obtain ⟨c, cs, rfl⟩ := List.exists_cons_of_ne_nil nonempty
  have hc := digit c List.mem_cons_self
  cases he with
  | letter alpha =>
    rw [isDigit_of_isAlpha (alpha c List.mem_cons_self)] at hc
    cases hc
  | digit _ next => exact next
  | equals start => rw [not_isDigit_of_mem start] at hc; cases hc

theorem extends_operator_iff {c : Char} (start : c ∈ operatorCharacters) (d : Char) :
    Extends [c] d ↔ d = '=' := by
  constructor
  · intro he
    cases he with
    | letter alpha =>
      have hc := alpha c List.mem_cons_self
      rw [not_isAlpha_of_mem start] at hc
      cases hc
    | digit digit =>
      have hc := digit c List.mem_cons_self
      rw [not_isDigit_of_mem start] at hc
      cases hc
    | equals => rfl
  · rintro rfl
    exact .equals start

theorem spelt_wordLexeme {letters : List Char} (nonempty : letters ≠ [])
    (alpha : ∀ c ∈ letters, c.isAlpha = true) :
    Spelt letters (wordLexeme (String.ofList letters)) := by
  by_cases h : ∃ word : Keyword, word.spelling = String.ofList letters
  · obtain ⟨word, same⟩ := h
    rw [wordLexeme_of_keyword same]
    exact .keyword letters nonempty alpha word same
  · have other : ∀ word : Keyword, word.spelling ≠ String.ofList letters :=
      fun word same => h ⟨word, same⟩
    rw [wordLexeme_of_other other]
    exact .identifier letters nonempty alpha other

/-- No token begins like a gap. -/
theorem solid_of_spelt {chars : List Char} {lexeme : Lexeme} (h : Spelt chars lexeme) :
    ∃ c cs, chars = c :: cs ∧ isGap c = false := by
  have letters (nonempty : chars ≠ []) (alpha : ∀ c ∈ chars, c.isAlpha = true) :
      ∃ c cs, chars = c :: cs ∧ isGap c = false := by
    obtain ⟨c, cs, rfl⟩ := List.exists_cons_of_ne_nil nonempty
    exact ⟨c, cs, rfl, not_isGap_of_isAlpha (alpha c List.mem_cons_self)⟩
  cases h with
  | string body => exact ⟨_, _, rfl, by decide⟩
  | keyword _ nonempty alpha => exact letters nonempty alpha
  | identifier _ nonempty alpha => exact letters nonempty alpha
  | number _ nonempty digit =>
    obtain ⟨c, cs, rfl⟩ := List.exists_cons_of_ne_nil nonempty
    exact ⟨c, cs, rfl, not_isGap_of_isDigit (digit c List.mem_cons_self)⟩
  | operator c start => exact ⟨_, _, rfl, not_isGap_of_mem start⟩
  | compound c start => exact ⟨_, _, rfl, not_isGap_of_mem start⟩
  | opening => exact ⟨_, _, rfl, by decide⟩
  | closing => exact ⟨_, _, rfl, by decide⟩

end Crafter.Source

namespace Crafter

/-- A token that a scan gives for its own text, wherever it stands. -/
def Token.WellSpelt (t : Token) : Prop := Source.Spelt t.span.text.toList t.lexeme

end Crafter
