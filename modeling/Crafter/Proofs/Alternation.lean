import Crafter.Program.Fragment
import Crafter.Proofs.Parsing
import Crafter.Proofs.Scanning
import Crafter.Proofs.Segments

/-! Expressions as tokens. The text of an expression has a value exactly if its
tokens are operands with single operators of arithmetic between them; every other
run of tokens leaves a segment of the text without a value. -/
namespace Crafter

namespace Source

theorem not_isAlphanum_of_mem {c : Char} (h : c ∈ operatorCharacters) : c.isAlphanum = false := by
  unfold Char.isAlphanum
  rw [not_isAlpha_of_mem h, not_isDigit_of_mem h]
  rfl

theorem not_isBlank_of_mem {c : Char} (h : c ∈ operatorCharacters) : Text.isBlank c = false := by
  have hall : operatorCharacters.all (fun d => !Text.isBlank d) = true := by decide
  simpa using List.all_eq_true.mp hall c h

theorem mem_operatorCharacters_of_mem {c : Char} (h : c ∈ Arithmetic.characters) :
    c ∈ operatorCharacters := by
  have hsubset : Arithmetic.characters ⊆ operatorCharacters := by decide
  exact hsubset h

theorem not_mem_characters_of_isAlphanum {c : Char} (h : c.isAlphanum = true) :
    c ∉ Arithmetic.characters := by
  intro hc
  rw [not_isAlphanum_of_mem (mem_operatorCharacters_of_mem hc)] at h
  cases h

end Source

namespace Grammar

open Source

/-- The token may stand in an expression, and a scan gives it for its text. -/
structure Part (t : Token) : Prop where
  spelt : t.WellSpelt
  isPart : IsPart t

/-- A single character of an operator, with an equals sign after it or without. -/
structure OperatorToken (t : Token) (c : Char) (more : List Char) : Prop where
  start : c ∈ operatorCharacters
  ending : more = [] ∨ more = ['=']
  text : t.span.text.toList = c :: more
  lexeme : t.lexeme = .operator (String.ofList (c :: more))

theorem Part.cases {t : Token} (h : Part t) :
    IsOperand t ∧ t.span.text.toList ≠ [] ∧ (∀ c ∈ t.span.text.toList, c.isAlphanum = true) ∨
      ∃ c more, OperatorToken t c more := by
  obtain ⟨hspelt, hpart⟩ := h
  unfold Token.WellSpelt at hspelt
  generalize htext : t.span.text.toList = chars at hspelt ⊢
  rcases hpart with hoperand | ⟨spelling, hlexeme⟩
  · refine Or.inl ⟨hoperand, ?_⟩
    rcases hoperand with ⟨name, hlexeme⟩ | ⟨value, hlexeme⟩
    · rw [hlexeme] at hspelt
      cases hspelt with
      | identifier _ nonempty alpha =>
        exact ⟨nonempty, fun c hc => Bool.or_eq_true_iff.mpr (Or.inl (alpha c hc))⟩
    · rw [hlexeme] at hspelt
      cases hspelt with
      | number _ nonempty digit =>
        exact ⟨nonempty, fun c hc => Bool.or_eq_true_iff.mpr (Or.inr (digit c hc))⟩
  · refine Or.inr ?_
    rw [hlexeme] at hspelt
    cases hspelt with
    | operator c start => exact ⟨c, [], start, Or.inl rfl, htext, hlexeme⟩
    | compound c start => exact ⟨c, ['='], start, Or.inr rfl, htext, hlexeme⟩

theorem operatorToken_of_lexeme {t : Token} {c : Char} (h : Part t)
    (hlexeme : t.lexeme = .operator (String.ofList [c])) : OperatorToken t c [] := by
  rcases h.cases with ⟨hoperand, -⟩ | ⟨d, more, hoperator⟩
  · rw [IsOperand, hlexeme] at hoperand
    rcases hoperand with ⟨_, hoperand⟩ | ⟨_, hoperand⟩ <;> cases hoperand
  · have hsame := hoperator.lexeme
    rw [hlexeme, Lexeme.operator.injEq, String.ofList_inj] at hsame
    obtain ⟨rfl, rfl⟩ := List.cons_eq_cons.mp hsame
    exact hoperator

theorem alphanum_of_operand {t : Token} (ht : Part t) (h : IsOperand t) :
    ∀ c ∈ t.span.text.toList, c.isAlphanum = true := by
  rcases ht.cases with ⟨-, -, alphanum⟩ | ⟨c, more, hoperator⟩
  · exact alphanum
  · rw [IsOperand, hoperator.lexeme] at h
    rcases h with ⟨_, h⟩ | ⟨_, h⟩ <;> cases h

theorem solid_of_operand {t : Token} (ht : Part t) (h : IsOperand t) :
    ∀ c ∈ t.span.text.toList, Text.isBlank c = false :=
  fun c hc => Text.not_isBlank_of_isAlphanum (alphanum_of_operand ht h c hc)

theorem plain_of_operand {t : Token} (ht : Part t) (h : IsOperand t) :
    ∀ c ∈ t.span.text.toList, c ∉ Arithmetic.characters :=
  fun c hc => not_mem_characters_of_isAlphanum (alphanum_of_operand ht h c hc)

/-- No token of an expression begins with a blank. -/
theorem Part.exists_solid {t : Token} (h : Part t) :
    ∃ c more, t.span.text.toList = c :: more ∧ Text.isBlank c = false := by
  rcases h.cases with ⟨-, nonempty, alphanum⟩ | ⟨c, more, hoperator⟩
  · obtain ⟨c, more, htext⟩ := List.exists_cons_of_ne_nil nonempty
    have hc : c ∈ t.span.text.toList := by
      rw [htext]
      exact List.mem_cons_self
    exact ⟨c, more, htext, Text.not_isBlank_of_isAlphanum (alphanum c hc)⟩
  · exact ⟨c, more, hoperator.text, not_isBlank_of_mem hoperator.start⟩

/-- The text of the tokens with single blanks between them. -/
def spaced (tokens : List Token) : List Char :=
  (" ".intercalate (tokens.map (·.span.text))).toList

theorem spaced_singleton (t : Token) : spaced [t] = t.span.text.toList := by
  unfold spaced
  rw [List.map_singleton, String.intercalate_singleton]

theorem spaced_cons_cons (t u : Token) (us : List Token) :
    spaced (t :: u :: us) = t.span.text.toList ++ ' ' :: spaced (u :: us) :=
  Lint.toList_intercalate_blank _ _ _

/-- What comes after the first token, with the blank that keeps it apart. -/
theorem exists_spaced_cons (t : Token) (rest : List Token) :
    ∃ after, spaced (t :: rest) = t.span.text.toList ++ after := by
  cases rest with
  | nil => exact ⟨[], by rw [spaced_singleton, List.append_nil]⟩
  | cons u us => exact ⟨_, spaced_cons_cons t u us⟩

end Grammar

namespace Environment

open Grammar Source

variable {env : Environment}

/-- What an operand stands for: a number for its double, a name for the value of the
variable. -/
inductive Supplies (env : Environment) (t : Token) : Float → Prop
  | number {value : Literal} (lexeme : t.lexeme = .number value) : Supplies env t value.toFloat
  | name {name : String} {x : Float} (lexeme : t.lexeme = .identifier name)
      (bound : env.get? name = some x) : Supplies env t x

/-- Single operators of arithmetic and operands in turn, with what the operands stand
for. -/
inductive Alternates (env : Environment) : List Token → List (Arithmetic × Float) → Prop
  | nil : Alternates env [] []
  | cons {operator operand : Token} {rest : List Token} {o : Arithmetic} {y : Float}
      {operands : List (Arithmetic × Float)}
      (lexeme : operator.lexeme = .operator (String.ofList [o.character]))
      (supplies : env.Supplies operand y) (others : Alternates env rest operands) :
      Alternates env (operator :: operand :: rest) ((o, y) :: operands)

/-- The tokens are operands with single operators of arithmetic between them, every
name has a value, nothing is divided by zero, and the operators applied from left to
right make up the total. -/
def Folds (env : Environment) (tokens : List Token) (v : Float) : Prop :=
  ∃ t rest x operands, tokens = t :: rest ∧ env.Supplies t x ∧ env.Alternates rest operands ∧
    Divides operands ∧ v = total x operands

theorem isOperand_of_supplies {t : Token} {x : Float} (h : env.Supplies t x) : IsOperand t := by
  cases h with
  | number lexeme => exact Or.inr ⟨_, lexeme⟩
  | name lexeme => exact Or.inl ⟨_, lexeme⟩

theorem yields_iff_supplies {t : Token} (spelt : t.WellSpelt) (h : IsOperand t) (x : Float) :
    env.Yields t.span.text.toList x ↔ env.Supplies t x := by
  unfold Token.WellSpelt at spelt
  generalize t.span.text.toList = chars at spelt
  rcases h with ⟨name, hlexeme⟩ | ⟨value, hlexeme⟩
  · rw [hlexeme] at spelt
    cases spelt with
    | identifier _ nonempty alpha =>
      constructor
      · intro h
        cases h with
        | digits _ digit => exact absurd digit (not_digits_of_letters nonempty alpha)
        | letters _ _ bound => exact .name hlexeme bound
      · intro h
        cases h with
        | number lexeme => rw [hlexeme] at lexeme; cases lexeme
        | name lexeme bound =>
          rw [hlexeme] at lexeme
          cases lexeme
          exact .letters nonempty alpha bound
  · rw [hlexeme] at spelt
    cases spelt with
    | number _ nonempty digit _ denotes =>
      have hvalue := Number.ofNat_of_denotes denotes
      constructor
      · intro h
        cases h with
        | digits =>
          rw [hvalue]
          exact .number hlexeme
        | letters _ alpha => exact absurd digit (not_digits_of_letters nonempty alpha)
      · intro h
        cases h with
        | number lexeme =>
          rw [hlexeme] at lexeme
          cases lexeme
          rw [← hvalue]
          exact .digits nonempty digit
        | name lexeme => rw [hlexeme] at lexeme; cases lexeme

/-! A segment that yields a value has nothing but letters or digits between its
blanks. -/

theorem isOperand_of_yields {t : Token} (ht : Part t) {after : List Char} {x : Float}
    (h : env.Yields (Text.trim (Chain.ofText (t.span.text.toList ++ after)).head) x) :
    IsOperand t := by
  rcases ht.cases with ⟨hoperand, -⟩ | ⟨c, more, hoperator⟩
  · exact hoperand
  · rw [hoperator.text, List.cons_append] at h
    by_cases hc : c ∈ Arithmetic.characters
    · obtain ⟨o, rfl⟩ := Arithmetic.exists_of_mem hc
      rw [Chain.ofText_character] at h
      exact absurd h (not_yields_nil x)
    · rw [Chain.ofText_cons_plain hc] at h
      have halphanum := alphanum_of_yields h c
        (Text.mem_trim_of_solid List.mem_cons_self (not_isBlank_of_mem hoperator.start))
      rw [not_isAlphanum_of_mem hoperator.start] at halphanum
      cases halphanum

/-- A segment has no blank between two tokens, so that the second one begins with an
operator of arithmetic. -/
theorem exists_operator_of_yields {t u : Token} {after : List Char} {x : Float} (ht : Part t)
    (hplain : ∀ c ∈ t.span.text.toList, c ∉ Arithmetic.characters) (hu : Part u)
    (h : env.Yields (Text.trim (Chain.ofText
      (t.span.text.toList ++ ' ' :: (u.span.text.toList ++ after))).head) x) :
    ∃ o more, OperatorToken u (Arithmetic.character o) more := by
  obtain ⟨b, _, hb, hbsolid⟩ := ht.exists_solid
  obtain ⟨d, _, hd, hdsolid⟩ := hu.exists_solid
  have hbmem : b ∈ t.span.text.toList := by
    rw [hb]
    exact List.mem_cons_self
  have hdmem : d ∈ u.span.text.toList := by
    rw [hd]
    exact List.mem_cons_self
  by_cases hdarithmetic : d ∈ Arithmetic.characters
  · rcases hu.cases with ⟨-, -, alphanum⟩ | ⟨c, more, hoperator⟩
    · exact absurd hdarithmetic (not_mem_characters_of_isAlphanum (alphanum d hdmem))
    · obtain ⟨o, rfl⟩ := Arithmetic.exists_of_mem hdarithmetic
      rw [hoperator.text] at hd
      obtain ⟨rfl, -⟩ := List.cons_eq_cons.mp hd
      exact ⟨o, more, hoperator⟩
  · -- otherwise the blank before it would stand in the middle of the operand
    rw [Chain.ofText_append_plain hplain, Chain.ofText_cons_plain (by decide), hd,
      List.cons_append, Chain.ofText_cons_plain hdarithmetic] at h
    have hblank := alphanum_of_yields h ' '
      (Text.mem_trim_of_between hbmem hbsolid List.mem_cons_self hdsolid)
    cases hblank

/-- Nothing but the operator itself stands between the blanks around it. -/
theorem more_eq_nil_of_yields {more after : List Char} {y : Float}
    (ending : more = [] ∨ more = ['='])
    (h : env.Yields (Text.trim (Chain.ofText (more ++ after)).head) y) : more = [] := by
  rcases ending with rfl | rfl
  · rfl
  · rw [List.singleton_append, Chain.ofText_cons_plain (by decide)] at h
    have hequals := alphanum_of_yields h '='
      (Text.mem_trim_of_solid List.mem_cons_self (by decide))
    cases hequals

/-- What the segments of the text of the tokens yield. -/
def Evaluates (env : Environment) (tokens : List Token) (x : Float)
    (operands : List (Arithmetic × Float)) : Prop :=
  env.Yields (Text.trim (Chain.ofText (spaced tokens)).head) x ∧
    env.Operands (Chain.ofText (spaced tokens)).tail operands

theorem evaluates_singleton {t : Token} (ht : Part t) (x : Float)
    (operands : List (Arithmetic × Float)) :
    env.Evaluates [t] x operands ↔ env.Supplies t x ∧ operands = [] := by
  have hvalue (h : IsOperand t) : env.Evaluates [t] x operands ↔
      env.Supplies t x ∧ operands = [] := by
    unfold Evaluates Operands
    rw [spaced_singleton, Chain.ofText_plain (plain_of_operand ht h),
      Text.trim_of_solid (solid_of_operand ht h), yields_iff_supplies ht.spelt h,
      List.forall₂_nil_left_iff]
  constructor
  · intro heval
    have h := heval.1
    rw [spaced_singleton, ← List.append_nil t.span.text.toList] at h
    exact (hvalue (isOperand_of_yields ht h)).mp heval
  · intro hsupplies
    exact (hvalue (isOperand_of_supplies hsupplies.1)).mpr hsupplies

theorem evaluates_cons {t u v : Token} {vs : List Token} {o : Arithmetic} (ht : Part t)
    (hoperand : IsOperand t) (hu : OperatorToken u o.character []) (x : Float)
    (operands : List (Arithmetic × Float)) :
    env.Evaluates (t :: u :: v :: vs) x operands ↔ env.Supplies t x ∧
      ∃ y others, operands = (o, y) :: others ∧ env.Evaluates (v :: vs) y others := by
  have hchain : Chain.ofText (spaced (t :: u :: v :: vs)) =
      ⟨t.span.text.toList ++ [' '], (o, ' ' :: (Chain.ofText (spaced (v :: vs))).head) ::
        (Chain.ofText (spaced (v :: vs))).tail⟩ := by
    rw [spaced_cons_cons, spaced_cons_cons, hu.text, List.singleton_append,
      Chain.ofText_append_plain (plain_of_operand ht hoperand),
      Chain.ofText_cons_plain (by decide), Chain.ofText_character,
      Chain.ofText_cons_plain (by decide)]
  unfold Evaluates Operands
  rw [hchain, Text.trim_append_blank (solid_of_operand ht hoperand),
    yields_iff_supplies ht.spelt hoperand, List.forall₂_cons_left_iff]
  apply and_congr_right
  intro _
  constructor
  · rintro ⟨⟨_, y⟩, others, ⟨rfl, hy⟩, hothers, rfl⟩
    rw [Text.trim_cons_blank] at hy
    exact ⟨y, others, rfl, hy, hothers⟩
  · rintro ⟨y, others, rfl, hy, hothers⟩
    rw [← Text.trim_cons_blank] at hy
    exact ⟨(o, y), others, ⟨rfl, hy⟩, hothers, rfl⟩

/-- After the first of several tokens that evaluate, the others begin with a single
operator of arithmetic and an operand. -/
theorem exists_operator_of_evaluates {t u : Token} {us : List Token} {x : Float}
    {operands : List (Arithmetic × Float)} (ht : Part t) (hu : Part u)
    (h : env.Evaluates (t :: u :: us) x operands) : IsOperand t ∧
      ∃ o v vs, OperatorToken u (Arithmetic.character o) [] ∧ us = v :: vs := by
  obtain ⟨hyields, hoperands⟩ := h
  obtain ⟨after, hafter⟩ := exists_spaced_cons u us
  rw [spaced_cons_cons] at hyields hoperands
  have hoperand : IsOperand t := isOperand_of_yields ht hyields
  have hplain := plain_of_operand ht hoperand
  rw [hafter] at hyields hoperands
  obtain ⟨o, more, hoperator⟩ := exists_operator_of_yields ht hplain hu hyields
  rw [hoperator.text, Chain.ofText_append_plain hplain, Chain.ofText_cons_plain (by decide),
    List.cons_append, Chain.ofText_character] at hoperands
  obtain ⟨operand, others, ⟨-, hy⟩, -, -⟩ := List.forall₂_cons_left_iff.mp hoperands
  obtain rfl := more_eq_nil_of_yields hoperator.ending hy
  refine ⟨hoperand, o, ?_⟩
  cases us with
  | cons v vs => exact ⟨v, vs, hoperator, rfl⟩
  | nil =>
    rw [spaced_singleton] at hafter
    have hnil : after = [] := List.self_eq_append_right.mp hafter
    rw [hnil] at hy
    exact absurd hy (not_yields_nil operand.2)

/-- A run of tokens evaluates exactly if operands and operators alternate in it. Two
tokens are taken off at a time, an operand and the operator after it. -/
theorem evaluates_iff : ∀ (t : Token) (rest : List Token), (∀ u ∈ t :: rest, Part u) →
    ∀ (x : Float) (operands : List (Arithmetic × Float)),
      env.Evaluates (t :: rest) x operands ↔ env.Supplies t x ∧ env.Alternates rest operands
  | t, [], hparts, x, operands => by
    rw [evaluates_singleton (hparts t List.mem_cons_self)]
    apply and_congr_right
    intro _
    constructor
    · rintro rfl
      exact .nil
    · rintro ⟨⟩
      rfl
  | t, [u], hparts, x, operands => by
    have ht := hparts t List.mem_cons_self
    have hu := hparts u (List.mem_cons_of_mem t List.mem_cons_self)
    constructor
    · intro h
      obtain ⟨-, _, _, _, -, hnil⟩ := exists_operator_of_evaluates ht hu h
      cases hnil
    · rintro ⟨-, ⟨⟩⟩
  | t, u :: v :: vs, hparts, x, operands => by
    have ht := hparts t List.mem_cons_self
    have hu := hparts u (List.mem_cons_of_mem t List.mem_cons_self)
    have ih := evaluates_iff v vs fun w hw =>
      hparts w (List.mem_cons_of_mem t (List.mem_cons_of_mem u hw))
    constructor
    · intro h
      obtain ⟨hoperand, o, _, _, hoperator, -⟩ := exists_operator_of_evaluates ht hu h
      rw [evaluates_cons ht hoperand hoperator] at h
      obtain ⟨hsupplies, y, others, rfl, hothers⟩ := h
      obtain ⟨hy, halternates⟩ := (ih y others).mp hothers
      exact ⟨hsupplies, .cons hoperator.lexeme hy halternates⟩
    · rintro ⟨hsupplies, halternates⟩
      cases halternates with
      | @cons _ _ _ o y others lexeme supplies halternates =>
        have hoperator : OperatorToken u o.character [] := operatorToken_of_lexeme hu lexeme
        rw [evaluates_cons ht (isOperand_of_supplies hsupplies) hoperator]
        exact ⟨hsupplies, y, others, rfl, (ih y others).mpr ⟨supplies, halternates⟩⟩

theorem eval_eq_ok_iff_folds {run : Run} (hparts : ∀ t ∈ run.tokens, Part t) (v : Float) :
    env.eval run.text = .ok v ↔ env.Folds run.tokens v := by
  obtain ⟨t, rest, htokens⟩ := List.exists_cons_of_ne_nil run.nonempty
  rw [htokens] at hparts
  have hspaced : run.text.toList = spaced (t :: rest) := by
    rw [← htokens]
    rfl
  rw [eval_eq_ok_iff, hspaced]
  constructor
  · rintro ⟨x, operands, hx, hoperands, hsound⟩
    obtain ⟨hsupplies, halternates⟩ := (evaluates_iff t rest hparts x operands).mp ⟨hx, hoperands⟩
    exact ⟨t, rest, x, operands, htokens, hsupplies, halternates, hsound⟩
  · rintro ⟨t', rest', x, operands, htokens', hsupplies, halternates, hsound⟩
    rw [htokens] at htokens'
    cases htokens'
    obtain ⟨hx, hoperands⟩ :=
      (evaluates_iff t rest hparts x operands).mpr ⟨hsupplies, halternates⟩
    exact ⟨x, operands, hx, hoperands, hsound⟩

end Environment

namespace Grammar

/-- An expression is read up to the first token that is no part of it. -/
theorem expression_append (run : Run) {rest : List Token} (h : ∀ t ∈ rest.head?, ¬ IsPart t) :
    Fragment.expression (run.tokens ++ rest) = ⟨run.text, rest, run.tokens.getLast?⟩ := by
  have hrest : ∀ t ∈ rest.head?, t.lexeme.inExpression = false := by
    intro t ht
    rw [← Bool.not_eq_true, inExpression_iff]
    exact h t ht
  unfold Fragment.expression
  rw [takeWhile_append_of_stop run.inExpression hrest,
    dropWhile_append_of_stop run.inExpression hrest]
  rfl

theorem expression_run (run : Run) : (Fragment.expression run.tokens).value = run.text := by
  have h : Fragment.expression (run.tokens ++ []) = ⟨run.text, [], run.tokens.getLast?⟩ :=
    expression_append run nofun
  rw [List.append_nil] at h
  rw [h]

/-- The tokens of an expression, printed, make up a program with its text in it. -/
theorem ofTokens_printed (keyword : Terminal (.keyword .print)) (run : Run) :
    Program.ofTokens (keyword.val :: run.tokens) =
      .ok [.printValue run.text keyword.val.span.start] := by
  have h := Program.ofTokens_derivation [.printValue keyword run]
  rw [Derivation.tokens, Derivation.tokens, List.append_nil, Phrase.tokens] at h
  rw [h, Derivation.tree, Derivation.tree, Phrase.tree]

theorem ofTokens_declared (keyword : Terminal (.keyword .declare)) {name : String}
    (target : Terminal (.identifier name)) (equals : Terminal (.operator "=")) (run : Run) :
    Program.ofTokens (keyword.val :: target.val :: equals.val :: run.tokens) =
      .ok [.declaration name run.text keyword.val.span.start] := by
  have h := Program.ofTokens_derivation [.declaration keyword name target equals run]
  rw [Derivation.tokens, Derivation.tokens, List.append_nil, Phrase.tokens] at h
  rw [h, Derivation.tree, Derivation.tree, Phrase.tree]

end Grammar

variable {file source : String} {tokens : List Token}

open Grammar in
/-- An expression that is read from a source has a value exactly if its tokens fold to
it. Otherwise its fault is the one of the leftmost segment that has one, and every text
that begins with the segments up to that one has the fault in every environment that
agrees on the names among them. -/
theorem Environment.eval_run (hscan : Source.scan file source = .ok tokens) {run : Run}
    (hrun : run.tokens ⊆ tokens) (env : Environment) :
    ((Fragment.expression run.tokens).value = run.text ∧
      ∀ keyword : Terminal (.keyword .print), Program.ofTokens (keyword.val :: run.tokens) =
        .ok [.printValue run.text keyword.val.span.start]) ∧
    (∀ v, env.eval run.text = .ok v ↔ env.Folds run.tokens v) ∧
    (∀ cause, env.eval run.text = .error cause ↔
      ∃ segments, Cut run.text.toList segments ∧ Segment.FirstFault env segments cause) ∧
    ∀ front s back cause, Cut run.text.toList (front ++ s :: back) →
      (∀ t ∈ front, ∀ other, ¬ t.Faults env other) → s.Faults env cause →
      ∀ (expression : String) (back' : List Segment) (env' : Environment),
        Cut expression.toList (front ++ s :: back') →
        (∀ t ∈ front ++ [s], env'.get? (String.ofList (Text.trim t.chars)) =
          env.get? (String.ofList (Text.trim t.chars))) →
        env'.eval expression = .error cause := by
  have hparts : ∀ t ∈ run.tokens, Part t :=
    fun t ht => ⟨Source.wellSpelt_of_scan file hscan t (hrun ht), run.plain t ht⟩
  refine ⟨⟨expression_run run, fun keyword => ofTokens_printed keyword run⟩,
    eval_eq_ok_iff_folds hparts, eval_eq_error_iff env run.text, ?_⟩
  intro front s back cause _ hfront hfaults expression back' env' hcut hsame
  exact eval_of_front hfront hfaults hcut hsame

namespace Sample

open Grammar

def sumToken (lexeme : Lexeme) (column : Nat) (text : String) : Token :=
  ⟨lexeme, .ofChars "sum" ⟨1, column⟩ text.toList⟩

def sumTokens : List Token :=
  [sumToken (.keyword .print) 1 "likho", sumToken (.identifier "i") 7 "i",
    sumToken (.operator "+") 9 "+", sumToken (.number (.exact 1)) 11 "1"]

theorem scan_sum : Source.scan "sum" "likho i + 1" = .ok sumTokens := by
  decide +kernel

/-- The expression of the only statement. -/
def sum : Run where
  tokens := sumTokens.tail
  nonempty := List.cons_ne_nil _ _
  plain := by
    have hin : ∀ t ∈ sumTokens.tail, t.lexeme.inExpression = true := by decide
    exact fun t ht => (inExpression_iff t).mp (hin t ht)

end Sample

/-- With a value for `i` the sum is worked out; without one the name is blamed. -/
theorem Environment.eval_run_sample :
    (Environment.empty.insert "i" (Number.ofNat 1)).eval "i + 1" =
      .ok (Number.ofNat 1 + Number.ofNat 1) ∧
    Environment.empty.eval "i + 1" = .error (.undefined "i") := by
  have htext : Sample.sum.text = "i + 1" := by decide +kernel
  have hrun : Sample.sum.tokens ⊆ Sample.sumTokens := List.subset_cons_self _ _
  rw [← htext]
  constructor
  · have hvalue :=
      (eval_run Sample.scan_sum hrun (Environment.empty.insert "i" (Number.ofNat 1))).2.1
    have hone : (Environment.empty.insert "i" (Number.ofNat 1)).Supplies
        (Sample.sumToken (.number (.exact 1)) 11 "1") (Literal.toFloat (.exact 1)) := .number rfl
    refine (hvalue _).mpr ⟨_, _, Number.ofNat 1, [(.add, Number.ofNat 1)], rfl, .name rfl rfl,
      .cons rfl hone .nil, ?_, rfl⟩
    intro operand hoperand hdivision
    rw [List.mem_singleton.mp hoperand] at hdivision
    cases hdivision
  · have hfault := (eval_run Sample.scan_sum hrun Environment.empty).2.2.1
    refine (hfault _).mpr ⟨_, Chain.cut_ofText _, [], _, _, rfl, nofun, ?_⟩
    have htrim : Text.trim (Chain.ofText Sample.sum.text.toList).head = ['i'] := by decide +kernel
    have halpha : ['i'].all Char.isAlpha = true := by decide
    have hrejects : Environment.empty.Rejects ['i'] (.undefined "i") :=
      .undefined (List.cons_ne_nil _ _) (List.all_eq_true.mp halpha) rfl
    rw [← htrim] at hrejects
    exact .operand hrejects

end Crafter
