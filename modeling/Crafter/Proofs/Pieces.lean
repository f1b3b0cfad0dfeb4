import Crafter.Proofs.Longest
import Crafter.Proofs.Spelling

/-! The reader of single tokens is exact: it reads a piece where a token is spelt,
as long as the token can be, and fails where the text begins with no token. -/
namespace Crafter.Source

theorem ne_of_class {p : Char → Bool} {c d : Char} (hc : p c = true) (hd : p d = false) :
    c ≠ d := by
  rintro rfl
  rw [hc] at hd
  cases hd

theorem readPiece_quote (cs : List Char) : readPiece '"' cs = readString cs := rfl

theorem readPiece_letter {c : Char} (h : c.isAlpha = true) (cs : List Char) :
    readPiece c cs = .ok ⟨wordLexeme (String.ofList (c :: cs.takeWhile Char.isAlpha)),
      c :: cs.takeWhile Char.isAlpha, cs.dropWhile Char.isAlpha⟩ := by
  have hquote := ne_of_class (p := Char.isAlpha) (d := '"') h rfl
  unfold readPiece
  rw [if_neg hquote, if_pos h]

theorem readPiece_digit {c : Char} (h : c.isDigit = true) (cs : List Char) :
    readPiece c cs = readNumber (c :: cs.takeWhile Char.isDigit) (cs.dropWhile Char.isDigit) := by
  have hquote := ne_of_class (p := Char.isDigit) (d := '"') h rfl
  have halpha : ¬ c.isAlpha = true := by
    intro ha
    rw [isDigit_of_isAlpha ha] at h
    cases h
  unfold readPiece
  rw [if_neg hquote, if_neg halpha, if_pos h]

theorem readPiece_operator {c : Char} (h : c ∈ operatorCharacters) (cs : List Char) :
    readPiece c cs = .ok (readOperator c cs) := by
  have hstart := (isOperatorStart_iff c).mpr h
  have hquote := ne_of_class (p := isOperatorStart) (d := '"') hstart rfl
  unfold readPiece
  rw [if_neg hquote, not_isAlpha_of_mem h, not_isDigit_of_mem h, if_pos hstart]
  rfl

theorem readPiece_opening (cs : List Char) :
    readPiece '{' cs = .ok ⟨.brace .opening, ['{'], cs⟩ := rfl

theorem readPiece_closing (cs : List Char) :
    readPiece '}' cs = .ok ⟨.brace .closing, ['}'], cs⟩ := rfl

theorem readPiece_stray {c : Char} (h : Stray c) (cs : List Char) :
    readPiece c cs = .error .strayCharacter := by
  obtain ⟨halpha, hdigit, hother⟩ := h
  have hoperator : ¬ isOperatorStart c = true := by
    rw [isOperatorStart_iff]
    exact fun hc => hother (List.mem_append_right _ hc)
  have hne : ∀ d ∈ ['"', '{', '}'], c ≠ d := by
    rintro d hd rfl
    exact hother (List.mem_append_left _ hd)
  unfold readPiece
  rw [if_neg (hne '"' (by decide)), halpha, hdigit, if_neg hoperator,
    if_neg (hne '{' (by decide)), if_neg (hne '}' (by decide))]
  rfl

theorem readString_eq_ok_iff (cs : List Char) (piece : Piece) :
    readString cs = .ok piece ↔ ∃ body rest, '"' ∉ body ∧ cs = body ++ '"' :: rest ∧
      piece = ⟨.string (String.ofList body), '"' :: (body ++ ['"']), rest⟩ := by
  constructor
  · intro h
    unfold readString at h
    split at h
    · cases h
    · next q rest hdrop =>
      have hq : q = '"' := by
        have hhead : q ∈ (cs.dropWhile (· ≠ '"')).head? := by rw [hdrop]; rfl
        simpa using head?_dropWhile_fails hhead
      subst hq
      refine ⟨cs.takeWhile (· ≠ '"'), rest, ?_, ?_, (Except.ok.inj h).symm⟩
      · intro hmem
        simpa using List.mem_takeWhile_imp hmem
      · rw [← hdrop, List.takeWhile_append_dropWhile]
  · rintro ⟨body, rest, hbody, rfl, rfl⟩
    have hplain : ∀ c ∈ body, decide (c ≠ '"') = true := by
      intro c hc
      apply decide_eq_true
      rintro rfl
      exact hbody hc
    have hstop : ∀ c ∈ ('"' :: rest).head?, decide (c ≠ '"') = false := by
      intro c hc
      cases hc
      rfl
    unfold readString
    rw [dropWhile_append_of_stop hplain hstop, takeWhile_append_of_stop hplain hstop]
    rfl

theorem readString_eq_error_iff (cs : List Char) (obstacle : Obstacle) :
    readString cs = .error obstacle ↔ obstacle = .openString ∧ '"' ∉ cs := by
  have hdrop : cs.dropWhile (· ≠ '"') = [] ↔ '"' ∉ cs := by
    rw [List.dropWhile_eq_nil_iff]
    constructor
    · intro h hmem
      simpa using h '"' hmem
    · intro h c hc
      apply decide_eq_true
      rintro rfl
      exact h hc
  unfold readString
  split
  · next hnil =>
    constructor
    · intro h
      cases h
      exact ⟨rfl, hdrop.mp hnil⟩
    · rintro ⟨rfl, _⟩
      rfl
  · next q rest hcons =>
    constructor
    · intro h
      cases h
    · rintro ⟨_, h⟩
      rw [hdrop.mpr h] at hcons
      cases hcons

/-- A piece that is read is a token, as long as it can be. -/
structure Piece.Sound (piece : Piece) : Prop where
  spelt : Spelt piece.chars piece.lexeme
  longest : ∀ d ∈ piece.rest.head?, ¬ Extends piece.chars d

theorem sound_of_readOperator {c : Char} (start : c ∈ operatorCharacters) (cs : List Char) :
    (readOperator c cs).Sound := by
  unfold readOperator
  split
  · next rest =>
    refine ⟨.compound c start, fun d _ => ?_⟩
    exact not_extends (not_isAlpha_of_mem start) (not_isDigit_of_mem start)
      (fun h => absurd h (List.cons_ne_nil _ _)) d
  · next hne =>
    refine ⟨.operator c start, fun d hd => ?_⟩
    rw [extends_operator_iff start]
    rintro rfl
    cases cs with
    | nil => cases hd
    | cons e rest =>
      cases hd
      exact hne rest rfl

theorem sound_of_readPiece {c : Char} {cs : List Char} {piece : Piece}
    (h : readPiece c cs = .ok piece) : piece.Sound := by
  rcases character_cases c with rfl | hc | hc | hc | rfl | rfl | hc
  · rw [readPiece_quote, readString_eq_ok_iff] at h
    obtain ⟨body, rest, closed, rfl, rfl⟩ := h
    exact ⟨.string body closed, fun d _ => not_extends (by decide) (by decide) (by simp) d⟩
  · rw [readPiece_letter hc] at h
    cases h
    have alpha : ∀ d ∈ c :: cs.takeWhile Char.isAlpha, d.isAlpha = true :=
      forall_mem_cons_takeWhile hc
    refine ⟨spelt_wordLexeme (List.cons_ne_nil _ _) alpha, fun d hd => ?_⟩
    rw [extends_letters_iff (List.cons_ne_nil _ _) alpha, head?_dropWhile_fails hd]
    exact Bool.false_ne_true
  · rw [readPiece_digit hc] at h
    have digit : ∀ d ∈ c :: cs.takeWhile Char.isDigit, d.isDigit = true :=
      forall_mem_cons_takeWhile hc
    unfold readNumber at h
    split at h
    · next value hvalue =>
      cases h
      have denotes := (ofDigits?_eq_some_iff _ _).mp hvalue
      refine ⟨.number _ (List.cons_ne_nil _ _) digit value denotes, fun d hd => ?_⟩
      rw [extends_digits_iff (List.cons_ne_nil _ _) digit, head?_dropWhile_fails hd]
      exact Bool.false_ne_true
    · cases h
  · rw [readPiece_operator hc] at h
    cases h
    exact sound_of_readOperator hc cs
  · rw [readPiece_opening] at h
    cases h
    exact ⟨.opening, fun d _ => not_extends (by decide) (by decide) (fun _ => by decide) d⟩
  · rw [readPiece_closing] at h
    cases h
    exact ⟨.closing, fun d _ => not_extends (by decide) (by decide) (fun _ => by decide) d⟩
  · rw [readPiece_stray hc] at h
    cases h

theorem readPiece_of_letters {letters rest cs : List Char} {c : Char} (nonempty : letters ≠ [])
    (alpha : ∀ d ∈ letters, d.isAlpha = true) (longest : ∀ d ∈ rest.head?, ¬ Extends letters d)
    (h : letters ++ rest = c :: cs) :
    readPiece c cs = .ok ⟨wordLexeme (String.ofList letters), letters, rest⟩ := by
  have hstop : ∀ d ∈ rest.head?, d.isAlpha = false := by
    intro d hd
    rw [← Bool.not_eq_true, ← extends_letters_iff nonempty alpha]
    exact longest d hd
  obtain ⟨l, ls, rfl⟩ := List.exists_cons_of_ne_nil nonempty
  rw [List.cons_append] at h
  obtain ⟨rfl, rfl⟩ := List.cons.inj h
  have htail : ∀ d ∈ ls, d.isAlpha = true := fun d hd => alpha d (List.mem_cons_of_mem l hd)
  rw [readPiece_letter (alpha l List.mem_cons_self), takeWhile_append_of_stop htail hstop,
    dropWhile_append_of_stop htail hstop]

theorem readPiece_of_digits {digits rest cs : List Char} {c : Char} (nonempty : digits ≠ [])
    (digit : ∀ d ∈ digits, d.isDigit = true) (longest : ∀ d ∈ rest.head?, d.isDigit = false)
    (h : digits ++ rest = c :: cs) : readPiece c cs = readNumber digits rest := by
  obtain ⟨l, ls, rfl⟩ := List.exists_cons_of_ne_nil nonempty
  rw [List.cons_append] at h
  obtain ⟨rfl, rfl⟩ := List.cons.inj h
  have htail : ∀ d ∈ ls, d.isDigit = true := fun d hd => digit d (List.mem_cons_of_mem l hd)
  rw [readPiece_digit (digit l List.mem_cons_self), takeWhile_append_of_stop htail longest,
    dropWhile_append_of_stop htail longest]

/-- What is spelt like a token, and is as long as it can be, is read as it. -/
theorem readPiece_of_spelt {chars rest cs : List Char} {lexeme : Lexeme} {c : Char}
    (hspelt : Spelt chars lexeme) (longest : ∀ d ∈ rest.head?, ¬ Extends chars d)
    (h : chars ++ rest = c :: cs) : readPiece c cs = .ok ⟨lexeme, chars, rest⟩ := by
  cases hspelt with
  | string body closed =>
    simp only [List.cons_append, List.append_assoc, List.nil_append, List.cons.injEq] at h
    obtain ⟨rfl, rfl⟩ := h
    rw [readPiece_quote, readString_eq_ok_iff]
    exact ⟨body, rest, closed, rfl, rfl⟩
  | keyword letters nonempty alpha word same =>
    rw [readPiece_of_letters nonempty alpha longest h, wordLexeme_of_keyword same]
  | identifier letters nonempty alpha other =>
    rw [readPiece_of_letters nonempty alpha longest h, wordLexeme_of_other other]
  | number digits nonempty digit value denotes =>
    have hstop : ∀ d ∈ rest.head?, d.isDigit = false := by
      intro d hd
      rw [← Bool.not_eq_true, ← extends_digits_iff nonempty digit]
      exact longest d hd
    rw [readPiece_of_digits nonempty digit hstop h]
    unfold readNumber
    rw [(ofDigits?_eq_some_iff chars value).mpr denotes]
  | operator c' start =>
    rw [List.cons_append, List.nil_append] at h
    obtain ⟨rfl, rfl⟩ := List.cons.inj h
    rw [readPiece_operator start]
    unfold readOperator
    split
    · -- the equals sign that follows would belong to the operator
      next rest' => exact absurd (.equals start) (longest '=' rfl)
    · rfl
  | compound c' start =>
    obtain ⟨rfl, rfl⟩ := List.cons.inj h
    rw [readPiece_operator start]
    rfl
  | opening =>
    obtain ⟨rfl, rfl⟩ := List.cons.inj h
    exact readPiece_opening rest
  | closing =>
    obtain ⟨rfl, rfl⟩ := List.cons.inj h
    exact readPiece_closing rest

theorem obstructs_of_readPiece {c : Char} {cs : List Char} {obstacle : Obstacle}
    (solid : isGap c = false) (h : readPiece c cs = .error obstacle) :
    Obstructs (c :: cs) obstacle := by
  rcases character_cases c with rfl | hc | hc | hc | rfl | rfl | hc
  · rw [readPiece_quote, readString_eq_error_iff] at h
    obtain ⟨rfl, unclosed⟩ := h
    exact .openString cs unclosed
  · rw [readPiece_letter hc] at h
    cases h
  · rw [readPiece_digit hc] at h
    unfold readNumber at h
    split at h
    · cases h
    · next hnone =>
      cases h
      obtain ⟨long, finite⟩ := (ofDigits?_eq_none_iff _).mp hnone
      have digit : ∀ d ∈ c :: cs.takeWhile Char.isDigit, d.isDigit = true :=
        forall_mem_cons_takeWhile hc
      have hobstructs := Obstructs.numberTooLong _ (cs.dropWhile Char.isDigit) digit
        (fun d hd => head?_dropWhile_fails hd) long finite
      rwa [List.cons_append, List.takeWhile_append_dropWhile] at hobstructs
  · rw [readPiece_operator hc] at h
    cases h
  · rw [readPiece_opening] at h
    cases h
  · rw [readPiece_closing] at h
    cases h
  · rw [readPiece_stray hc] at h
    cases h
    exact .strayCharacter c cs hc solid

/-- An obstacle is a character that is no gap, and from which nothing is read. -/
theorem readPiece_of_obstructs {cs : List Char} {obstacle : Obstacle}
    (h : Obstructs cs obstacle) : ∃ c cs', cs = c :: cs' ∧ isGap c = false ∧
      readPiece c cs' = .error obstacle := by
  cases h with
  | openString cs unclosed =>
    refine ⟨'"', cs, rfl, by decide, ?_⟩
    rw [readPiece_quote, readString_eq_error_iff]
    exact ⟨rfl, unclosed⟩
  | numberTooLong digits rest digit longest long finite =>
    have nonempty : digits ≠ [] := by
      rintro rfl
      exact absurd long (by decide)
    obtain ⟨c, cs, hcs⟩ := List.exists_cons_of_ne_nil nonempty
    refine ⟨c, cs ++ rest, by rw [hcs]; rfl, ?_, ?_⟩
    · exact not_isGap_of_isDigit (digit c (by rw [hcs]; exact List.mem_cons_self))
    · rw [readPiece_of_digits nonempty digit longest (by rw [hcs]; rfl)]
      unfold readNumber
      rw [(ofDigits?_eq_none_iff digits).mpr ⟨long, finite⟩]
  | strayCharacter c cs stray solid => exact ⟨c, cs, rfl, solid, readPiece_stray stray cs⟩

end Crafter.Source
