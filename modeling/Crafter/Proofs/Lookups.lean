import Crafter.Proofs.Alternation
import Crafter.Proofs.Unused

/-! Which variables are looked up while an expression of a program is worked out: the
names that lint reads out of it, from left to right, as far as the evaluation gets. A
variable is looked up exactly if the result hangs on it. -/
namespace Crafter

namespace Environment

/-- Takes the value of a variable away. -/
def forget (env : Environment) (name : String) : Environment :=
  ⟨env.entries.filter (·.1 ≠ name), env.ascending.filter _⟩

theorem lookupEntries_filter (name other : String) (entries : List (String × Float)) :
    lookupEntries other (entries.filter (·.1 ≠ name)) =
      if other = name then none else lookupEntries other entries := by
  induction entries with
  | nil => simp [lookupEntries]
  | cons entry rest ih =>
    obtain ⟨key, value⟩ := entry
    by_cases hkey : key = name
    · rw [List.filter_cons_of_neg (by simpa using hkey), ih, lookupEntries, hkey]
      by_cases hother : other = name
      · rw [if_pos hother, if_pos hother]
      · rw [if_neg hother, if_neg hother, if_neg (Ne.symm hother)]
    · rw [List.filter_cons_of_pos (by simpa using hkey), lookupEntries, ih, lookupEntries]
      by_cases hother : other = name
      · have hne : key ≠ other := by rwa [hother]
        rw [if_neg hne, if_pos hother, if_pos hother]
      · rw [if_neg hother, if_neg hother]

theorem get?_forget (env : Environment) (name other : String) :
    (env.forget name).get? other = if other = name then none else env.get? other :=
  lookupEntries_filter name other env.entries

theorem agreesOff_forget (env : Environment) (name : String) :
    env.AgreesOff name (env.forget name) := by
  intro other hother
  rw [get?_forget, if_neg hother]

theorem agreesOff_insert (env : Environment) (name : String) (x : Float) :
    env.AgreesOff name (env.insert name x) := by
  intro other hother
  rw [get?_insert, if_neg (Ne.symm hother)]

end Environment

namespace Inquiry

variable {α : Type} {env env' : Environment} {inquiry : Inquiry α} {names : List String}

/-- Whether a variable is asked for is settled before its value is known. -/
theorem mem_asked_of_agreesOff {name : String} (h : env.AgreesOff name env')
    (hname : name ∈ inquiry.asked env) : name ∈ inquiry.asked env' := by
  induction inquiry with
  | found => cases hname
  | failed => cases hname
  | ask other next ih =>
    by_cases hother : other = name
    · rw [hother]
      exact List.mem_cons_self
    · have hnext : name ∈ (next (env.get? other)).asked env :=
        (List.mem_cons.mp hname).resolve_left (Ne.symm hother)
      rw [h other hother] at hnext
      exact List.mem_cons_of_mem other (ih (env'.get? other) hnext)

theorem InOrder.result_ne (h : inquiry.InOrder names) {name : String}
    (hname : name ∈ inquiry.asked env) (hnone : env.get? name = none)
    (hsome : env'.get? name ≠ none) : inquiry.result env ≠ inquiry.result env' := by
  rw [(h.unbound env name).mpr ⟨hname, hnone⟩]
  intro heq
  exact hsome ((h.unbound env' name).mp heq.symm).2

/-- The variables that are asked for are exactly those that the result hangs on: giving
one a value, or taking its value away, makes a difference. -/
theorem InOrder.mem_asked_iff (h : inquiry.InOrder names) (env : Environment) (name : String) :
    name ∈ inquiry.asked env ↔
      ∃ env', env.AgreesOff name env' ∧ inquiry.result env ≠ inquiry.result env' := by
  constructor
  · intro hname
    cases hvalue : env.get? name with
    | none =>
      have hsome : (env.insert name 0).get? name ≠ none := by
        rw [Environment.get?_insert, if_pos rfl]
        exact Option.some_ne_none 0
      exact ⟨env.insert name 0, env.agreesOff_insert name 0, h.result_ne hname hvalue hsome⟩
    | some x =>
      have hagrees := env.agreesOff_forget name
      have hnone : (env.forget name).get? name = none := by
        rw [Environment.get?_forget, if_pos rfl]
      have hsome : env.get? name ≠ none := by
        rw [hvalue]
        exact Option.some_ne_none x
      have hasked := mem_asked_of_agreesOff hagrees hname
      exact ⟨env.forget name, hagrees, (h.result_ne hasked hnone hsome).symm⟩
  · rintro ⟨env', hagrees, hne⟩
    by_contra hname
    apply hne
    apply result_congr
    intro other hother
    apply hagrees
    rintro rfl
    exact hname hother

end Inquiry

namespace Grammar

/-- The parser makes the text of the tokens wherever an expression may stand: in front of
a token that is no part of it, in a statement that prints it, and in a declaration. -/
structure Expresses (tokens : List Token) (text : String) : Prop where
  front : ∀ rest : List Token, (∀ t ∈ rest.head?, ¬ IsPart t) →
    Fragment.expression (tokens ++ rest) = ⟨text, rest, tokens.getLast?⟩
  printed : ∀ keyword : Terminal (.keyword .print),
    Program.ofTokens (keyword.val :: tokens) = .ok [.printValue text keyword.val.span.start]
  declared : ∀ (keyword : Terminal (.keyword .declare)) (name : String)
    (target : Terminal (.identifier name)) (equals : Terminal (.operator "=")),
    Program.ofTokens (keyword.val :: target.val :: equals.val :: tokens) =
      .ok [.declaration name text keyword.val.span.start]

theorem expresses_run (run : Run) : Expresses run.tokens run.text where
  front _ h := expression_append run h
  printed keyword := ofTokens_printed keyword run
  declared keyword _ target equals := ofTokens_declared keyword target equals run

end Grammar

theorem Token.flatMap_names (tokens : List Token) : tokens.flatMap (·.lexeme.names) =
    (tokens.filter (·.lexeme.category = "IDENTIFIER")).map (·.lexeme.value) := by
  induction tokens with
  | nil => rfl
  | cons t tokens ih =>
    obtain ⟨lexeme, span⟩ := t
    cases lexeme with
    | identifier name => exact congrArg (name :: ·) ih
    | _ => exact ih

variable {file source : String} {tokens : List Token}

open Grammar in
/-- The names that lint reads out of an expression are those of its tokens, in their
order and as often as they stand there. Worked out in any environment, the expression
looks up the first so many of them, and all of them if it has a value. -/
theorem Lint.namesIn_lookups (hscan : Source.scan file source = .ok tokens) {run : Run}
    (hrun : run.tokens ⊆ tokens) :
    Expresses run.tokens run.text ∧
    namesIn run.text =
      (run.tokens.filter (·.lexeme.category = "IDENTIFIER")).map (·.lexeme.value) ∧
    ∀ env : Environment,
      (Inquiry.ofExpression run.text).result env = env.eval run.text ∧
      (Inquiry.ofExpression run.text).asked env <+: namesIn run.text ∧
      (∀ x, env.eval run.text = .ok x →
        (Inquiry.ofExpression run.text).asked env = namesIn run.text) ∧
      ∀ name, name ∈ (Inquiry.ofExpression run.text).asked env ↔
        ∃ env', env.AgreesOff name env' ∧ env.eval run.text ≠ env'.eval run.text := by
  have hspelt : ∀ t ∈ run.tokens, t.WellSpelt :=
    fun t ht => Source.wellSpelt_of_scan file hscan t (hrun ht)
  have hwords : words run.text.toList = namesIn run.text := by
    rw [words_run hspelt, namesIn_run hspelt]
  have horder := Inquiry.inOrder_ofExpression run.text
  rw [hwords] at horder
  refine ⟨expresses_run run, ?_, ?_⟩
  · rw [namesIn_run hspelt, Token.flatMap_names]
  · intro env
    refine ⟨Inquiry.result_ofExpression env run.text, horder.front env, ?_, ?_⟩
    · intro x hx
      apply horder.whole env x
      rw [Inquiry.result_ofExpression, hx]
    · intro name
      simp only [horder.mem_asked_iff, Inquiry.result_ofExpression]

namespace Sample

open Grammar

/-- A letter stands right before a digit, and nothing between two operands. -/
def adjacentTokens : List Token :=
  [sumToken (.keyword .print) 1 "likho", sumToken (.identifier "a") 7 "a",
    sumToken (.operator "+") 8 "+", sumToken (.identifier "b") 9 "b",
    sumToken (.operator "/") 10 "/", sumToken (.identifier "a") 11 "a",
    sumToken (.identifier "c") 13 "c", sumToken (.number (.exact 2)) 14 "2"]

theorem scan_adjacent : Source.scan "sum" "likho a+b/a c2" = .ok adjacentTokens := by
  decide +kernel

def adjacent : Run where
  tokens := adjacentTokens.tail
  nonempty := List.cons_ne_nil _ _
  plain := by
    have hin : ∀ t ∈ adjacentTokens.tail, t.lexeme.inExpression = true := by decide
    exact fun t ht => (inExpression_iff t).mp (hin t ht)

end Sample

/-- Without any values the evaluation ends at the first name, and the others have no say
in how it ends. -/
theorem Lint.namesIn_lookups_adjacent :
    Source.scan "sum" "likho a+b/a c2" = .ok Sample.adjacentTokens ∧
    namesIn "a + b / a c 2" = ["a", "b", "a", "c"] ∧
    (∀ env, (Inquiry.ofExpression "a + b / a c 2").asked env <+: ["a", "b", "a", "c"]) ∧
    (Inquiry.ofExpression "a + b / a c 2").asked .empty = ["a"] ∧
    ∀ env', Environment.empty.AgreesOff "b" env' →
      Environment.empty.eval "a + b / a c 2" = env'.eval "a + b / a c 2" := by
  have htext : Sample.adjacent.text = "a + b / a c 2" := by decide +kernel
  have hrun : Sample.adjacent.tokens ⊆ Sample.adjacentTokens := List.subset_cons_self _ _
  obtain ⟨-, hnames, hlookups⟩ := namesIn_lookups Sample.scan_adjacent hrun
  rw [htext] at hnames hlookups
  have hlist : (Sample.adjacent.tokens.filter (·.lexeme.category = "IDENTIFIER")).map
      (·.lexeme.value) = ["a", "b", "a", "c"] := by
    decide +kernel
  rw [hlist] at hnames
  have hasked : (Inquiry.ofExpression "a + b / a c 2").asked .empty = ["a"] := by
    decide +kernel
  refine ⟨Sample.scan_adjacent, hnames, ?_, hasked, ?_⟩
  · intro env
    have hfront := (hlookups env).2.1
    rwa [hnames] at hfront
  · intro env' hagrees
    by_contra hne
    have hb := ((hlookups .empty).2.2.2 "b").mpr ⟨env', hagrees, hne⟩
    rw [hasked] at hb
    exact absurd hb (by decide)

end Crafter
