import Crafter.Program.Statement
import Crafter.Proofs.Longest

/-! The grammar of programs, as derivation trees. A derivation keeps every token
that it derives: `tokens` is its yield, read from left to right, and `tree` is
the program that it stands for. No token list has two derivations. -/
namespace Crafter.Grammar

/-- A token that says a given thing. -/
abbrev Terminal (lexeme : Lexeme) := {t : Token // t.lexeme = lexeme}

def IsOperand (t : Token) : Prop :=
  (∃ name, t.lexeme = .identifier name) ∨ ∃ value, t.lexeme = .number value

def comparisons : List String := ["<", ">", "<=", ">=", "==", "!="]

/-- Two operands with a comparison between them. -/
structure Test where
  left : {t : Token // IsOperand t}
  comparison : String
  known : comparison ∈ comparisons
  operator : Terminal (.operator comparison)
  right : {t : Token // IsOperand t}

def Test.tokens (test : Test) : List Token := [test.left, test.operator, test.right]

def Test.condition (test : Test) : Condition :=
  ⟨test.left, test.comparison, test.right⟩

def IsPart (t : Token) : Prop := IsOperand t ∨ ∃ spelling, t.lexeme = .operator spelling

/-- An expression: a run of operators, names and numbers that is not empty. -/
structure Run where
  tokens : List Token
  nonempty : tokens ≠ []
  plain : ∀ t ∈ tokens, IsPart t

def Run.text (run : Run) : String := " ".intercalate (run.tokens.map (·.span.text))

/-- Statements between two braces. -/
structure Block (Statement : Type) where
  opener : Terminal (.brace .opening)
  body : List Statement
  closer : Terminal (.brace .closing)

/-- A derivation of one statement, with one constructor for each production. -/
inductive Phrase where
  | declaration (keyword : Terminal (.keyword .declare)) (name : String)
      (target : Terminal (.identifier name)) (equals : Terminal (.operator "=")) (value : Run)
  | printText (keyword : Terminal (.keyword .print)) (contents : String)
      (text : Terminal (.string contents))
  | printValue (keyword : Terminal (.keyword .print)) (value : Run)
  | conditional (keyword : Terminal (.keyword .branch)) (test : Test) (body : Block Phrase)
  | alternative (keyword : Terminal (.keyword .branch)) (test : Test) (body : Block Phrase)
      (otherwise : Terminal (.keyword .otherwise)) (other : Block Phrase)
  | loop (keyword : Terminal (.keyword .loop)) (test : Test) (body : Block Phrase)

/-- A derivation of a program: one of each of its statements in turn. -/
abbrev Derivation := List Phrase

mutual

def Phrase.tokens : Phrase → List Token
  | .declaration keyword _ target equals value =>
    keyword.val :: target.val :: equals.val :: value.tokens
  | .printText keyword _ text => [keyword.val, text.val]
  | .printValue keyword value => keyword.val :: value.tokens
  | .conditional keyword test body => keyword.val :: (test.tokens ++ Block.tokens body)
  | .alternative keyword test body otherwise other =>
    keyword.val :: (test.tokens ++ (Block.tokens body ++ otherwise.val :: Block.tokens other))
  | .loop keyword test body => keyword.val :: (test.tokens ++ Block.tokens body)

def Block.tokens : Block Phrase → List Token
  | ⟨opener, body, closer⟩ => opener.val :: (Derivation.tokens body ++ [closer.val])

/-- The token list that a derivation derives. -/
def Derivation.tokens : List Phrase → List Token
  | [] => []
  | phrase :: rest => phrase.tokens ++ Derivation.tokens rest

end

mutual

def Phrase.tree : Phrase → Statement
  | .declaration keyword name _ _ value => .declaration name value.text keyword.val.span.start
  | .printText keyword contents _ => .printText contents keyword.val.span.start
  | .printValue keyword value => .printValue value.text keyword.val.span.start
  | .conditional keyword test body =>
    .conditional test.condition (Block.tree body) [] keyword.val.span.start
  | .alternative keyword test body _ other =>
    .conditional test.condition (Block.tree body) (Block.tree other) keyword.val.span.start
  | .loop keyword test body => .loop test.condition (Block.tree body) keyword.val.span.start

def Block.tree : Block Phrase → List Statement
  | ⟨_, body, _⟩ => Derivation.tree body

/-- The program that a derivation stands for. A second block that is missing
and one that is empty stand for the same tree. -/
def Derivation.tree : List Phrase → Program
  | [] => []
  | phrase :: rest => phrase.tree :: Derivation.tree rest

end

theorem inExpression_iff (t : Token) : t.lexeme.inExpression = true ↔ IsPart t := by
  unfold IsPart IsOperand
  cases t.lexeme <;> simp [Lexeme.inExpression]

theorem Run.inExpression (run : Run) : ∀ t ∈ run.tokens, t.lexeme.inExpression = true := by
  intro t ht
  exact (inExpression_iff t).mpr (run.plain t ht)

theorem derivation_tokens_append (d e : Derivation) :
    Derivation.tokens (d ++ e) = Derivation.tokens d ++ Derivation.tokens e := by
  induction d with
  | nil => rfl
  | cons phrase d ih =>
    rw [List.cons_append, Derivation.tokens, Derivation.tokens, ih, List.append_assoc]

theorem derivation_tree_append (d e : Derivation) :
    Derivation.tree (d ++ e) = Derivation.tree d ++ Derivation.tree e := by
  induction d with
  | nil => rfl
  | cons phrase d ih =>
    rw [List.cons_append, Derivation.tree, Derivation.tree, ih, List.cons_append]

/-- The keyword that a statement begins with. -/
def Phrase.word : Phrase → Keyword
  | .declaration .. => .declare
  | .printText .. | .printValue .. => .print
  | .conditional .. | .alternative .. => .branch
  | .loop .. => .loop

theorem phrase_tokens_cons (phrase : Phrase) :
    ∃ t rest, phrase.tokens = t :: rest ∧ t.lexeme = .keyword phrase.word := by
  cases phrase with
  | declaration keyword => exact ⟨_, _, by rw [Phrase.tokens], keyword.property⟩
  | printText keyword => exact ⟨_, _, by rw [Phrase.tokens], keyword.property⟩
  | printValue keyword => exact ⟨_, _, by rw [Phrase.tokens], keyword.property⟩
  | conditional keyword => exact ⟨_, _, by rw [Phrase.tokens], keyword.property⟩
  | alternative keyword => exact ⟨_, _, by rw [Phrase.tokens], keyword.property⟩
  | loop keyword => exact ⟨_, _, by rw [Phrase.tokens], keyword.property⟩

theorem phrase_word_ne_otherwise (phrase : Phrase) : phrase.word ≠ .otherwise := by
  cases phrase <;> exact nofun

theorem phrase_word_eq {a b : Phrase} {x y : List Token} (h : a.tokens ++ x = b.tokens ++ y) :
    a.word = b.word := by
  obtain ⟨t, rest, ha, ht⟩ := phrase_tokens_cons a
  obtain ⟨u, rest', hb, hu⟩ := phrase_tokens_cons b
  rw [ha, hb, List.cons_append, List.cons_append] at h
  rw [(List.cons.inj h).1, hu] at ht
  exact (Lexeme.keyword.inj ht).symm

/-- A token that no statement before it can take in. -/
def EndsPhrase (t : Token) : Prop :=
  t.lexeme.inExpression = false ∧ t.lexeme ≠ .keyword .otherwise

theorem endsPhrase_keyword {t : Token} {word : Keyword} (h : t.lexeme = .keyword word)
    (hword : word ≠ .otherwise) : EndsPhrase t := by
  refine ⟨by rw [h]; rfl, ?_⟩
  intro he
  rw [h] at he
  exact hword (Lexeme.keyword.inj he)

theorem endsPhrase_closing {t : Token} (h : t.lexeme = .brace .closing) : EndsPhrase t :=
  ⟨by rw [h]; rfl, by rw [h]; decide⟩

/-- What may stand after the last statement of a block or of a program. -/
def EndsBody (ts : List Token) : Prop := ∀ t ∈ ts.head?, t.lexeme = .brace .closing

theorem endsBody_nil : EndsBody [] := by
  intro t ht
  cases ht

theorem endsBody_closer (closer : Terminal (.brace .closing)) (ts : List Token) :
    EndsBody (closer.val :: ts) := by
  intro t ht
  cases ht
  exact closer.property

/-- What follows a statement begins with another statement, or ends the body. -/
theorem endsPhrase_of_mem_head {d : Derivation} {ts : List Token} (hts : EndsBody ts) :
    ∀ t ∈ (Derivation.tokens d ++ ts).head?, EndsPhrase t := by
  intro t ht
  cases d with
  | nil => exact endsPhrase_closing (hts t ht)
  | cons phrase d =>
    obtain ⟨first, rest, hphrase, hfirst⟩ := phrase_tokens_cons phrase
    rw [Derivation.tokens, hphrase] at ht
    cases ht
    exact endsPhrase_keyword hfirst (phrase_word_ne_otherwise phrase)

/-- The same token cannot be two different terminals. -/
theorem terminal_lexeme_eq {a b : Lexeme} {t : Terminal a} {u : Terminal b}
    (h : t.val = u.val) : a = b := by
  have hlexeme := congrArg Token.lexeme h
  rw [t.property, u.property] at hlexeme
  exact hlexeme

theorem test_append_inj {a b : Test} {x y : List Token} (h : a.tokens ++ x = b.tokens ++ y) :
    a = b ∧ x = y := by
  obtain ⟨left, comparison, _, operator, right⟩ := a
  obtain ⟨left', comparison', _, operator', right'⟩ := b
  simp only [Test.tokens, List.cons_append, List.nil_append, List.cons.injEq] at h
  obtain ⟨hleft, hoperator, hright, hxy⟩ := h
  have hcomparison : comparison = comparison' :=
    Lexeme.operator.inj (terminal_lexeme_eq hoperator)
  subst hcomparison
  cases Subtype.ext hleft
  cases Subtype.ext hoperator
  cases Subtype.ext hright
  exact ⟨rfl, hxy⟩

theorem run_append_inj {a b : Run} {x y : List Token} (hx : ∀ t ∈ x.head?, EndsPhrase t)
    (hy : ∀ t ∈ y.head?, EndsPhrase t) (h : a.tokens ++ x = b.tokens ++ y) : a = b ∧ x = y := by
  obtain ⟨htokens, hxy⟩ := append_inj_of_stop (p := fun t : Token => t.lexeme.inExpression)
    a.inExpression (fun t ht => (hx t ht).1) b.inExpression (fun t ht => (hy t ht).1) h
  obtain ⟨tokens, _, _⟩ := a
  obtain ⟨tokens', _, _⟩ := b
  cases htokens
  exact ⟨rfl, hxy⟩

theorem run_tokens_cons (run : Run) :
    ∃ t rest, run.tokens = t :: rest ∧ t.lexeme.inExpression = true := by
  cases htokens : run.tokens with
  | nil => exact absurd htokens run.nonempty
  | cons t rest =>
    refine ⟨t, rest, rfl, run.inExpression t ?_⟩
    rw [htokens]
    exact List.mem_cons_self

/-- No expression begins with a text in quotes. -/
theorem string_ne_run {contents : String} (text : Terminal (.string contents)) (value : Run)
    {x y : List Token} : text.val :: x ≠ value.tokens ++ y := by
  intro h
  obtain ⟨t, rest, hvalue, ht⟩ := run_tokens_cons value
  rw [hvalue, List.cons_append] at h
  rw [← (List.cons.inj h).1, text.property] at ht
  exact absurd ht Bool.false_ne_true

/-! What stands in a statement before the end of its first block or expression
tells the statement from all others, so that no two derivations begin alike. -/

theorem declaration_append_inj (keyword : Terminal (.keyword .declare)) (name : String)
    (target : Terminal (.identifier name)) (equals : Terminal (.operator "=")) (value : Run)
    {b : Phrase} {x y : List Token} (hx : ∀ t ∈ x.head?, EndsPhrase t)
    (hy : ∀ t ∈ y.head?, EndsPhrase t)
    (h : (Phrase.declaration keyword name target equals value).tokens ++ x = b.tokens ++ y) :
    .declaration keyword name target equals value = b ∧ x = y := by
  cases b with
  | declaration keyword' name' target' equals' value' =>
    simp only [Phrase.tokens, List.cons_append, List.cons.injEq] at h
    obtain ⟨hkeyword, htarget, hequals, hvalue⟩ := h
    have hname : name = name' := Lexeme.identifier.inj (terminal_lexeme_eq htarget)
    subst hname
    cases Subtype.ext hkeyword
    cases Subtype.ext htarget
    cases Subtype.ext hequals
    obtain ⟨rfl, rfl⟩ := run_append_inj hx hy hvalue
    exact ⟨rfl, rfl⟩
  | _ => exact absurd (phrase_word_eq h) nofun

theorem printText_append_inj (keyword : Terminal (.keyword .print)) (contents : String)
    (text : Terminal (.string contents)) {b : Phrase} {x y : List Token}
    (h : (Phrase.printText keyword contents text).tokens ++ x = b.tokens ++ y) :
    .printText keyword contents text = b ∧ x = y := by
  cases b with
  | printText keyword' contents' text' =>
    simp only [Phrase.tokens, List.cons_append, List.nil_append, List.cons.injEq] at h
    obtain ⟨hkeyword, htext, hxy⟩ := h
    have hcontents : contents = contents' := Lexeme.string.inj (terminal_lexeme_eq htext)
    subst hcontents
    cases Subtype.ext hkeyword
    cases Subtype.ext htext
    exact ⟨rfl, hxy⟩
  | printValue keyword' value =>
    simp only [Phrase.tokens, List.cons_append, List.nil_append, List.cons.injEq] at h
    exact absurd h.2 (string_ne_run text value)
  | _ => exact absurd (phrase_word_eq h) nofun

theorem printValue_append_inj (keyword : Terminal (.keyword .print)) (value : Run) {b : Phrase}
    {x y : List Token} (hx : ∀ t ∈ x.head?, EndsPhrase t) (hy : ∀ t ∈ y.head?, EndsPhrase t)
    (h : (Phrase.printValue keyword value).tokens ++ x = b.tokens ++ y) :
    .printValue keyword value = b ∧ x = y := by
  cases b with
  | printValue keyword' value' =>
    simp only [Phrase.tokens, List.cons_append, List.cons.injEq] at h
    obtain ⟨hkeyword, hvalue⟩ := h
    cases Subtype.ext hkeyword
    obtain ⟨rfl, rfl⟩ := run_append_inj hx hy hvalue
    exact ⟨rfl, rfl⟩
  | printText keyword' contents text =>
    simp only [Phrase.tokens, List.cons_append, List.nil_append, List.cons.injEq] at h
    exact absurd h.2.symm (string_ne_run text value)
  | _ => exact absurd (phrase_word_eq h) nofun

mutual

/-- A statement's tokens show where it ends, if no token after it continues it. -/
theorem phrase_append_inj : ∀ (a b : Phrase) {x y : List Token},
    (∀ t ∈ x.head?, EndsPhrase t) → (∀ t ∈ y.head?, EndsPhrase t) →
    a.tokens ++ x = b.tokens ++ y → a = b ∧ x = y
  | .declaration keyword name target equals value, b, x, y, hx, hy, h =>
    declaration_append_inj keyword name target equals value hx hy h
  | .printText keyword contents text, b, x, y, _, _, h =>
    printText_append_inj keyword contents text h
  | .printValue keyword value, b, x, y, hx, hy, h => printValue_append_inj keyword value hx hy h
  | .conditional keyword test body, b, x, y, hx, hy, h => by
    cases b with
    | conditional keyword' test' body' =>
      simp only [Phrase.tokens, List.cons_append, List.append_assoc, List.cons.injEq] at h
      obtain ⟨hkeyword, htest⟩ := h
      cases Subtype.ext hkeyword
      obtain ⟨rfl, hbody⟩ := test_append_inj htest
      obtain ⟨rfl, rfl⟩ := block_append_inj body body' hbody
      exact ⟨rfl, rfl⟩
    | alternative keyword' test' body' otherwise other =>
      simp only [Phrase.tokens, List.cons_append, List.append_assoc, List.cons.injEq] at h
      obtain ⟨rfl, hbody⟩ := test_append_inj h.2
      obtain ⟨rfl, rfl⟩ := block_append_inj body body' hbody
      exact absurd otherwise.property (hx otherwise.val rfl).2
    | _ => exact absurd (phrase_word_eq h) nofun
  | .alternative keyword test body otherwise other, b, x, y, hx, hy, h => by
    -- the first block ends at the same token in both, and what follows decides
    cases b with
    | conditional keyword' test' body' =>
      simp only [Phrase.tokens, List.cons_append, List.append_assoc, List.cons.injEq] at h
      obtain ⟨rfl, hbody⟩ := test_append_inj h.2
      obtain ⟨rfl, rfl⟩ := block_append_inj body body' hbody
      exact absurd otherwise.property (hy otherwise.val rfl).2
    | alternative keyword' test' body' otherwise' other' =>
      simp only [Phrase.tokens, List.cons_append, List.append_assoc, List.cons.injEq] at h
      obtain ⟨hkeyword, htest⟩ := h
      cases Subtype.ext hkeyword
      obtain ⟨rfl, hbody⟩ := test_append_inj htest
      obtain ⟨rfl, hrest⟩ := block_append_inj body body' hbody
      obtain ⟨hotherwise, hother⟩ := List.cons.inj hrest
      cases Subtype.ext hotherwise
      obtain ⟨rfl, rfl⟩ := block_append_inj other other' hother
      exact ⟨rfl, rfl⟩
    | _ => exact absurd (phrase_word_eq h) nofun
  | .loop keyword test body, b, x, y, hx, hy, h => by
    cases b with
    | loop keyword' test' body' =>
      simp only [Phrase.tokens, List.cons_append, List.append_assoc, List.cons.injEq] at h
      obtain ⟨hkeyword, htest⟩ := h
      cases Subtype.ext hkeyword
      obtain ⟨rfl, hbody⟩ := test_append_inj htest
      obtain ⟨rfl, rfl⟩ := block_append_inj body body' hbody
      exact ⟨rfl, rfl⟩
    | _ => exact absurd (phrase_word_eq h) nofun

/-- A block's closing brace shows where it ends. -/
theorem block_append_inj : ∀ (a b : Block Phrase) {x y : List Token},
    Block.tokens a ++ x = Block.tokens b ++ y → a = b ∧ x = y
  | ⟨opener, body, closer⟩, ⟨opener', body', closer'⟩, x, y, h => by
    simp only [Block.tokens, List.cons_append, List.append_assoc, List.nil_append,
      List.cons.injEq] at h
    obtain ⟨hopener, hbody⟩ := h
    cases Subtype.ext hopener
    obtain ⟨rfl, hrest⟩ := derivation_append_inj body body' (endsBody_closer closer x)
      (endsBody_closer closer' y) hbody
    obtain ⟨hcloser, rfl⟩ := List.cons.inj hrest
    cases Subtype.ext hcloser
    exact ⟨rfl, rfl⟩

/-- A body's tokens show where it ends, if a closing brace or nothing follows. -/
theorem derivation_append_inj : ∀ (d e : List Phrase) {x y : List Token},
    EndsBody x → EndsBody y → Derivation.tokens d ++ x = Derivation.tokens e ++ y → d = e ∧ x = y
  | [], [], x, y, _, _, h => ⟨rfl, h⟩
  | [], phrase :: e, x, y, hx, _, h => by
    obtain ⟨t, rest, hphrase, ht⟩ := phrase_tokens_cons phrase
    rw [Derivation.tokens, Derivation.tokens, hphrase, List.nil_append] at h
    subst h
    rw [hx t rfl] at ht
    cases ht
  | phrase :: d, [], x, y, _, hy, h => by
    obtain ⟨t, rest, hphrase, ht⟩ := phrase_tokens_cons phrase
    rw [Derivation.tokens, Derivation.tokens, hphrase, List.nil_append] at h
    subst h
    rw [hy t rfl] at ht
    cases ht
  | a :: d, b :: e, x, y, hx, hy, h => by
    rw [Derivation.tokens, Derivation.tokens, List.append_assoc, List.append_assoc] at h
    obtain ⟨rfl, hrest⟩ := phrase_append_inj a b (endsPhrase_of_mem_head hx)
      (endsPhrase_of_mem_head hy) h
    obtain ⟨rfl, rfl⟩ := derivation_append_inj d e hx hy hrest
    exact ⟨rfl, rfl⟩

end

/-- The grammar is unambiguous. -/
theorem derivation_tokens_injective {d e : Derivation}
    (h : Derivation.tokens d = Derivation.tokens e) : d = e :=
  (derivation_append_inj d e endsBody_nil endsBody_nil (congrArg (· ++ []) h)).1

end Crafter.Grammar
