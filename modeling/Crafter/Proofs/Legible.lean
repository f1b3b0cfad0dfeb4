import Crafter.Proofs.Inquiries
import Crafter.Proofs.Law
import Crafter.Proofs.Parsing
import Crafter.Proofs.Phrases
import Crafter.Proofs.Scanning
import Mathlib.Data.List.Nodup

/-! What a statement of a source reads. The names among the tokens of its own
expression or condition are the ones that lint takes it to use, and its value
depends on them and on nothing else. -/
namespace Crafter

namespace Lint

open Grammar Source

/-- A token of an expression that is no name has no letters. -/
theorem no_letter_of_spelt {chars : List Char} {lexeme : Lexeme} (h : Spelt chars lexeme)
    (hin : lexeme.inExpression = true) (hnames : lexeme.names = []) :
    ∀ c ∈ chars, c.isAlpha = false := by
  cases h with
  | identifier => cases hnames
  | number digits nonempty digit => exact fun c hc => not_isAlpha_of_isDigit (digit c hc)
  | operator c start =>
    intro d hd
    rw [List.mem_singleton.mp hd]
    exact not_isAlpha_of_mem start
  | compound c start =>
    intro d hd
    rcases List.mem_cons.mp hd with rfl | hd
    · exact not_isAlpha_of_mem start
    · rw [List.mem_singleton.mp hd]
      decide
  | string | keyword | opening | closing => cases hin

/-- The words of a token of an expression: the name that it is, or none. -/
theorem words_spelt {chars : List Char} {lexeme : Lexeme} (h : Spelt chars lexeme)
    (hin : lexeme.inExpression = true) : words chars = lexeme.names := by
  cases lexeme with
  | identifier name =>
    cases h with
    | identifier letters nonempty alpha => exact words_letters nonempty alpha
  | _ => exact words_of_no_letter (no_letter_of_spelt h hin rfl)

/-- Blanks keep the words of the texts apart that they are put between. -/
theorem words_intercalate (texts : List String) :
    words (" ".intercalate texts).toList = texts.flatMap fun text => words text.toList := by
  induction texts with
  | nil => rfl
  | cons text texts ih =>
    cases texts with
    | nil => rw [String.intercalate_singleton, List.flatMap_singleton]
    | cons next texts =>
      rw [toList_intercalate_blank, words_append_cons _ (by decide), ih]
      rfl

/-- The words of an expression are the names among its tokens. -/
theorem words_run {run : Run} (spelt : ∀ t ∈ run.tokens, t.WellSpelt) :
    words run.text.toList = run.tokens.flatMap (·.lexeme.names) := by
  unfold Run.text
  rw [words_intercalate, List.flatMap_map]
  apply List.flatMap_congr
  intro t ht
  exact words_spelt (spelt t ht) (run.inExpression t ht)

/-- A name is a word, and no keyword. -/
theorem words_name {chars : List Char} {name : String} (h : Spelt chars (.identifier name)) :
    words name.toList = [name] ∧ Keyword.ofSpelling? name = none := by
  cases h with
  | identifier letters nonempty alpha other =>
    refine ⟨?_, ofSpelling?_eq_none other⟩
    rw [String.toList_ofList]
    exact words_letters nonempty alpha

/-- None of them is a keyword, so that they are what lint reads out of it. -/
theorem namesIn_run {run : Run} (spelt : ∀ t ∈ run.tokens, t.WellSpelt) :
    namesIn run.text = run.tokens.flatMap (·.lexeme.names) := by
  change (words run.text.toList).filter _ = _
  rw [words_run spelt, List.filter_eq_self]
  intro name hname
  obtain ⟨⟨lexeme, span⟩, ht, hname⟩ := List.mem_flatMap.mp hname
  cases lexeme with
  | identifier other =>
    cases List.mem_singleton.mp hname
    rw [(words_name (spelt _ ht)).2]
    rfl
  | _ => cases hname

theorem operandNames_eq (c : Condition) :
    operandNames c = c.left.lexeme.names ++ c.right.lexeme.names := by
  obtain ⟨⟨left, _⟩, _, ⟨right, _⟩⟩ := c
  cases left <;> cases right <;> rfl

/-- What a phrase reads is told by its tokens. -/
theorem usedNames_tree {phrase : Phrase} (spelt : ∀ t ∈ phrase.content, t.WellSpelt) :
    usedNames phrase.tree = phrase.names := by
  cases phrase with
  | declaration keyword name target equals value =>
    exact namesIn_run fun t ht => spelt t (List.mem_cons_of_mem _ (List.mem_cons_of_mem _ ht))
  | printText => rfl
  | printValue keyword value => exact namesIn_run spelt
  | conditional keyword test | alternative keyword test | loop keyword test =>
    exact operandNames_eq test.condition

end Lint

namespace Environment

open Grammar Lint

theorem reads_evalToken {t : Token} (spelt : t.WellSpelt) (h : IsOperand t) :
    Reads t.lexeme.names fun env => env.evalToken t := by
  obtain ⟨lexeme, span⟩ := t
  rcases h with ⟨name, hlexeme⟩ | ⟨value, hlexeme⟩
  · cases hlexeme
    have h := reads_operand name.toList
    rw [(words_name spelt).1] at h
    exact h
  · cases hlexeme
    exact .of_value value.toFloat

/-- For a name that is no word at all this says no more than that the value depends
on nothing else. -/
theorem evalToken_congr {t : Token} (h : IsOperand t) {env env' : Environment}
    (heq : ∀ name ∈ t.lexeme.names, env.get? name = env'.get? name) :
    env.evalToken t = env'.evalToken t := by
  obtain ⟨lexeme, span⟩ := t
  rcases h with ⟨name, hlexeme⟩ | ⟨value, hlexeme⟩
  · cases hlexeme
    have hname := heq name (List.mem_singleton.mpr rfl)
    change env.operand name.toList = env'.operand name.toList
    unfold operand
    rw [String.ofList_toList, hname]
  · cases hlexeme
    rfl

theorem test_congr {test : Condition} (hleft : IsOperand test.left)
    (hright : IsOperand test.right) {env env' : Environment}
    (heq : ∀ name ∈ operandNames test, env.get? name = env'.get? name) :
    env.test test = env'.test test := by
  rw [operandNames_eq] at heq
  unfold Environment.test
  rw [evalToken_congr hleft fun name hname => heq name (List.mem_append_left _ hname),
    evalToken_congr hright fun name hname => heq name (List.mem_append_right _ hname)]

/-- Whether a condition holds depends on the names among its operands. -/
theorem reads_test {test : Condition} (left : test.left.WellSpelt) (right : test.right.WellSpelt)
    (hleft : IsOperand test.left) (hright : IsOperand test.right) :
    Reads (operandNames test) fun env => env.test test := by
  have hcompare (x : Float) : Reads test.right.lexeme.names fun env =>
      env.evalToken test.right >>= fun y => .ok (compareBy test.operator x y) := by
    have h := (reads_evalToken right hright).bind fun y =>
      Reads.of_value (compareBy test.operator x y)
    rwa [List.append_nil] at h
  rw [operandNames_eq]
  exact (reads_evalToken left hleft).bind hcompare

end Environment

/-- The value of the statement's own expression, or whether its condition holds,
depends on the given names. -/
def Statement.ReadsOnly (names : List String) : Statement → Prop
  | .declaration _ value _ | .printValue value _ => Reads names fun env => env.eval value
  | .conditional test _ _ _ | .loop test _ _ => Reads names fun env => env.test test
  | .printText .. | .foreign .. | .absent _ => names = []

theorem Statement.fails_of_unbound {s : Statement} {names : List String} (h : s.ReadsOnly names)
    {env : Environment} {name : String} (hname : name ∈ names) (hnone : env.get? name = none) :
    ∃ cause, s.Fails env cause := by
  cases s with
  | declaration | printValue | conditional | loop => exact h.needs env name hname hnone
  | printText | foreign | absent =>
    have hnames : names = [] := h
    rw [hnames] at hname
    cases hname

theorem Statement.unbound_of_fails {s : Statement} {names : List String} (h : s.ReadsOnly names)
    {env : Environment} {name : String} (hfails : s.Fails env (.undefined name)) :
    name ∈ names ∧ env.get? name = none := by
  cases s with
  | declaration | printValue | conditional | loop => exact h.blames env name hfails
  | printText | foreign | absent => cases hfails

theorem Grammar.readsOnly_tree {phrase : Phrase} (spelt : ∀ t ∈ phrase.content, t.WellSpelt) :
    phrase.tree.ReadsOnly (Lint.usedNames phrase.tree) := by
  have test_reads {test : Test} (spelt : ∀ t ∈ test.tokens, t.WellSpelt) :
      Reads (Lint.operandNames test.condition) fun env => env.test test.condition :=
    Environment.reads_test (spelt _ (by simp [Test.tokens, Test.condition]))
      (spelt _ (by simp [Test.tokens, Test.condition])) test.left.property test.right.property
  have run_reads {run : Run} (spelt : ∀ t ∈ run.tokens, t.WellSpelt) :
      Reads (Lint.namesIn run.text) fun env => env.eval run.text := by
    rw [Lint.namesIn_run spelt, ← Lint.words_run spelt]
    exact Environment.reads_eval run.text
  cases phrase with
  | declaration keyword name target equals value =>
    exact run_reads fun t ht => spelt t (List.mem_cons_of_mem _ (List.mem_cons_of_mem _ ht))
  | printText => rfl
  | printValue => exact run_reads spelt
  | conditional | alternative | loop => exact test_reads spelt

namespace Program

/-- What the tree of a source is like: its statements start one after the other,
and each reads the variables that lint takes it to use. -/
structure Legible (p : Program) : Prop where
  places : (statements p).Pairwise fun s t => s.loc.Before t.loc
  reads : ∀ s ∈ statements p, s.ReadsOnly (Lint.usedNames s)

/-- The name stands in the own expression or condition of a statement of the
program that the tokens make up. -/
def Mentions (tokens : List Token) (s : Statement) (name : String) : Prop :=
  ∃ d, Grammar.Derivation.tokens d = tokens ∧
    ∃ phrase ∈ Grammar.Derivation.phrases d, phrase.tree = s ∧ name ∈ phrase.names

variable {file source : String} {tokens : List Token} {p : Program}

open Grammar

theorem wellSpelt_of_mem_phrases (hscan : Source.scan file source = .ok tokens) {d : Derivation}
    (hd : Derivation.tokens d = tokens) {phrase : Phrase} (h : phrase ∈ Derivation.phrases d) :
    ∀ t ∈ phrase.content, t.WellSpelt := by
  intro t ht
  apply Source.wellSpelt_of_scan file hscan
  rw [← hd]
  exact mem_tokens_of_own h (List.mem_cons_of_mem _ ht)

theorem legible_of_scan (hscan : Source.scan file source = .ok tokens)
    (h : ofTokens tokens = .ok p) : Legible p := by
  obtain ⟨d, hd, rfl⟩ := exists_derivation_of_ofTokens h
  constructor
  · apply pairwise_loc
    rw [hd]
    exact Source.pairwise_of_scan file hscan
  · intro s hs
    rw [statements_tree] at hs
    obtain ⟨phrase, hphrase, rfl⟩ := List.mem_map.mp hs
    exact readsOnly_tree (wellSpelt_of_mem_phrases hscan hd hphrase)

theorem isOperand_of_loop (h : ofTokens tokens = .ok p) {test : Condition}
    {body : List Statement} {loc : Position} (hs : .loop test body loc ∈ statements p) :
    IsOperand test.left ∧ IsOperand test.right := by
  obtain ⟨d, _, rfl⟩ := exists_derivation_of_ofTokens h
  rw [statements_tree] at hs
  obtain ⟨phrase, _, hphrase⟩ := List.mem_map.mp hs
  cases phrase with
  | loop keyword test body =>
    cases hphrase
    exact ⟨test.left.property, test.right.property⟩
  | _ => cases hphrase

theorem mentions_iff (hscan : Source.scan file source = .ok tokens) (h : ofTokens tokens = .ok p)
    {s : Statement} (hs : s ∈ statements p) (name : String) :
    Mentions tokens s name ↔ name ∈ Lint.usedNames s := by
  constructor
  · rintro ⟨d, hd, phrase, hphrase, rfl, hname⟩
    rwa [Lint.usedNames_tree (wellSpelt_of_mem_phrases hscan hd hphrase)]
  · intro hname
    obtain ⟨d, hd, rfl⟩ := exists_derivation_of_ofTokens h
    rw [statements_tree] at hs
    obtain ⟨phrase, hphrase, rfl⟩ := List.mem_map.mp hs
    rw [Lint.usedNames_tree (wellSpelt_of_mem_phrases hscan hd hphrase)] at hname
    exact ⟨d, hd, phrase, hphrase, rfl, hname⟩

/-- No two statements of a source start at the same place. -/
theorem eq_of_loc_eq (h : Legible p) {s t : Statement} (hs : s ∈ statements p)
    (ht : t ∈ statements p) (heq : s.loc = t.loc) : s = t := by
  have hnodup : ((statements p).map Statement.loc).Nodup :=
    Position.nodup_of_pairwise_before (List.pairwise_map.mpr h.places)
  exact List.inj_on_of_nodup_map hnodup hs ht heq

end Program

end Crafter
