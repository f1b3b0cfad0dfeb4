import Crafter.Proofs.Covers
import Mathlib.Logic.ExistsUnique

/-! The parser accepts exactly the token lists that the grammar derives, and
gives the tree of the derivation. -/
namespace Crafter

open Grammar

namespace Reading

/-- Two readings that no token after the last statement, and no end of the
tokens, tells apart. -/
structure Agrees (r q : Reading) : Prop where
  step : ∀ t, EndsPhrase t → r.step t = q.step t
  finish : r.finish = q.finish

theorem Agrees.refl (r : Reading) : r.Agrees r := ⟨fun _ _ => rfl, rfl⟩

/-- A finished statement agrees with what it settles to. -/
theorem agrees_of_settle {r q : Reading} (h : r.settle = .ok q) (he : expected r.mode = none)
    (hc : ∀ t, EndsPhrase t → r.continues t = false) : r.Agrees q := by
  have hmode := mode_of_settle h he
  constructor
  · intro t ht
    unfold step
    rw [hc t ht, continues_between hmode t, h]
    rfl
  · unfold finish
    rw [he, h, hmode, settle_between hmode]
    rfl

/-- Where the first token can be no part of the statement before it, the rest
is read alike. -/
theorem run_of_agrees {r q : Reading} (h : r.Agrees q) {t : Token} (ht : EndsPhrase t)
    (ts : List Token) : r.run (t :: ts) = q.run (t :: ts) := by
  rw [run_cons, run_cons, h.step t ht]

section

variable (bs : List OpenBlock) (cs : List Statement) (l : Option Token)

theorem run_test (owner : ComparisonOwner) (test : Test) :
    run ⟨.compared owner, bs, cs, l⟩ test.tokens =
      .ok ⟨.opening (owner.block test.condition), bs, cs, some test.right.val⟩ := by
  obtain ⟨left, comparison, known, operator, right⟩ := test
  have hleft : step ⟨.compared owner, bs, cs, l⟩ left.val =
      .ok ⟨.related owner left, bs, cs, some left.val⟩ :=
    step_of_takes (.left rfl left.property)
  have hoperator : step ⟨.related owner left, bs, cs, some left.val⟩ operator.val =
      .ok ⟨.closing owner left comparison, bs, cs, some operator.val⟩ :=
    step_of_takes (.operator rfl known operator.property)
  have hright : step ⟨.closing owner left comparison, bs, cs, some operator.val⟩ right.val =
      .ok ⟨.opening (owner.block ⟨left, comparison, right⟩), bs, cs, some right.val⟩ :=
    step_of_takes (.right rfl right.property)
  rw [Test.tokens, run_cons_ok hleft, run_cons_ok hoperator, run_cons_ok hright]
  rfl

theorem run_expression (owner : ExpressionOwner) (parts : List String) (ts : List Token)
    (plain : ∀ t ∈ ts, IsPart t) :
    ∃ l', run ⟨.expression owner parts, bs, cs, l⟩ ts =
      .ok ⟨.expression owner ((ts.map (·.span.text)).reverse ++ parts), bs, cs, l'⟩ := by
  induction ts generalizing parts l with
  | nil => exact ⟨l, rfl⟩
  | cons t ts ih =>
    have ht : step ⟨.expression owner parts, bs, cs, l⟩ t =
        .ok ⟨.expression owner (t.span.text :: parts), bs, cs, some t⟩ :=
      step_of_takes (.part rfl (plain t List.mem_cons_self))
    obtain ⟨l', h⟩ := ih (some t) (t.span.text :: parts) fun u hu =>
      plain u (List.mem_cons_of_mem t hu)
    refine ⟨l', ?_⟩
    rw [run_cons_ok ht, h, List.map_cons, List.reverse_cons, List.append_assoc]
    rfl

theorem step_print {t : Token} (h : t.lexeme = .keyword .print) :
    step ⟨.between, bs, cs, l⟩ t = .ok ⟨.printing t, bs, cs, some t⟩ :=
  step_of_takes (.print rfl h)

theorem step_branch {t : Token} (h : t.lexeme = .keyword .branch) :
    step ⟨.between, bs, cs, l⟩ t = .ok ⟨.compared (.conditional t), bs, cs, some t⟩ :=
  step_of_takes (.branch rfl h)

/-- A closing brace with an open block closes it. -/
theorem step_closer {t : Token} (h : t.lexeme = .brace .closing) (block : OpenBlock) :
    step ⟨.between, block :: bs, cs, l⟩ t = .ok (close ⟨.between, [], cs, some t⟩ block bs) := by
  have htakes : Takes ⟨.between, block :: bs, cs, l⟩ t
      (close ⟨.between, block :: bs, cs, l⟩ block bs) := .closer rfl rfl h
  have hstep := step_of_takes htakes
  obtain ⟨owner, opener, before⟩ := block
  cases owner <;> exact hstep

theorem run_declaration (keyword : Terminal (.keyword .declare)) (name : String)
    (target : Terminal (.identifier name)) (equals : Terminal (.operator "=")) (value : Run) :
    ∃ l', run ⟨.between, bs, cs, l⟩ (Phrase.declaration keyword name target equals value).tokens =
      .ok ⟨.expression (.declaration keyword name target)
        (value.tokens.map (·.span.text)).reverse, bs, cs, l'⟩ := by
  have hkeyword : step ⟨.between, bs, cs, l⟩ keyword.val =
      .ok ⟨.declared keyword, bs, cs, some keyword.val⟩ :=
    step_of_takes (.declare rfl keyword.property)
  have htarget : step ⟨.declared keyword, bs, cs, some keyword.val⟩ target.val =
      .ok ⟨.named keyword name target, bs, cs, some target.val⟩ :=
    step_of_takes (.name rfl target.property)
  have hequals : step ⟨.named keyword name target, bs, cs, some target.val⟩ equals.val =
      .ok ⟨.expression (.declaration keyword name target) [], bs, cs, some equals.val⟩ :=
    step_of_takes (.equals rfl equals.property)
  obtain ⟨l', h⟩ := run_expression bs cs (some equals.val) (.declaration keyword name target) []
    value.tokens value.plain
  refine ⟨l', ?_⟩
  rw [Phrase.tokens, run_cons_ok hkeyword, run_cons_ok htarget, run_cons_ok hequals, h,
    List.append_nil]

theorem run_printText (keyword : Terminal (.keyword .print)) (contents : String)
    (text : Terminal (.string contents)) :
    run ⟨.between, bs, cs, l⟩ (Phrase.printText keyword contents text).tokens =
      .ok ⟨.between, bs, .printText contents keyword.val.span.start :: cs, some text.val⟩ := by
  have htext : step ⟨.printing keyword, bs, cs, some keyword.val⟩ text.val =
      .ok ⟨.between, bs, .printText contents keyword.val.span.start :: cs, some text.val⟩ :=
    step_of_takes (.text rfl text.property)
  rw [Phrase.tokens, run_cons_ok (step_print bs cs l keyword.property), run_cons_ok htext]
  rfl

theorem run_printValue (keyword : Terminal (.keyword .print)) (value : Run) :
    ∃ l', run ⟨.between, bs, cs, l⟩ (Phrase.printValue keyword value).tokens =
      .ok ⟨.expression (.print keyword) (value.tokens.map (·.span.text)).reverse, bs, cs, l'⟩ := by
  obtain ⟨tokens, nonempty, plain⟩ := value
  cases tokens with
  | nil => exact absurd rfl nonempty
  | cons t rest =>
    have hfirst : step ⟨.printing keyword, bs, cs, some keyword.val⟩ t =
        .ok ⟨.expression (.print keyword) [t.span.text], bs, cs, some t⟩ :=
      step_of_takes (.firstPart rfl (plain t List.mem_cons_self))
    obtain ⟨l', h⟩ := run_expression bs cs (some t) (.print keyword) [t.span.text] rest
      fun u hu => plain u (List.mem_cons_of_mem t hu)
    refine ⟨l', ?_⟩
    rw [Phrase.tokens, run_cons_ok (step_print bs cs l keyword.property), run_cons_ok hfirst, h,
      List.map_cons, List.reverse_cons]

end

/-- An expression ends before whatever cannot stand in it. -/
theorem agrees_of_expression {bs : List OpenBlock} {cs : List Statement} {l : Option Token}
    {owner : ExpressionOwner} {parts : List String} {s : Statement}
    (h : settle ⟨.expression owner parts, bs, cs, l⟩ = .ok ⟨.between, bs, s :: cs, l⟩) :
    Agrees ⟨.expression owner parts, bs, cs, l⟩ ⟨.between, bs, s :: cs, l⟩ := by
  apply agrees_of_settle h rfl
  intro t ht
  rw [continues_expression rfl]
  exact ht.1

theorem run_parts_ne_nil (value : Run) : (value.tokens.map (·.span.text)).reverse ≠ [] := by
  intro h
  exact value.nonempty (List.map_eq_nil_iff.mp (List.reverse_eq_nil_iff.mp h))

theorem agrees_decided (test : Condition) (body : List Statement) (loc : Position)
    (bs : List OpenBlock) (cs : List Statement) (l : Option Token) :
    Agrees ⟨.decided test body loc, bs, cs, l⟩
      ⟨.between, bs, .conditional test body [] loc :: cs, l⟩ := by
  apply agrees_of_settle rfl rfl
  intro t ht
  rw [← Bool.not_eq_true, continues_decided rfl]
  exact ht.2

mutual

theorem run_phrase : ∀ (phrase : Phrase) (bs : List OpenBlock) (cs : List Statement)
    (l : Option Token), ∃ q l', run ⟨.between, bs, cs, l⟩ phrase.tokens = .ok q ∧
      q.Agrees ⟨.between, bs, phrase.tree :: cs, l'⟩
  | .declaration keyword name target equals value, bs, cs, l => by
    obtain ⟨l', h⟩ := run_declaration bs cs l keyword name target equals value
    -- the expression is still open after its last token, and only agrees with a
    -- reading in which the declaration is complete
    refine ⟨_, l', h, agrees_of_expression ?_⟩
    rw [settle_declaration rfl (run_parts_ne_nil value), joinParts_map_reverse]
    rfl
  | .printText keyword contents text, bs, cs, l =>
    ⟨_, _, run_printText bs cs l keyword contents text, Agrees.refl _⟩
  | .printValue keyword value, bs, cs, l => by
    obtain ⟨l', h⟩ := run_printValue bs cs l keyword value
    refine ⟨_, l', h, agrees_of_expression ?_⟩
    rw [settle_print rfl (run_parts_ne_nil value), joinParts_map_reverse]
    rfl
  | .conditional keyword test body, bs, cs, l => by
    have hbody := run_block body (.consequence test.condition keyword.val.span.start) bs cs
      (some test.right.val)
    refine ⟨_, _, ?_, agrees_decided test.condition body.tree keyword.val.span.start bs cs
      (some body.closer.val)⟩
    rw [Phrase.tokens, run_cons_ok (step_branch bs cs l keyword.property),
      run_append_ok (run_test bs cs _ (.conditional keyword) test)]
    refine hbody.trans ?_
    rw [close, List.reverse_reverse]
  | .alternative keyword test body otherwise other, bs, cs, l => by
    have hbody := run_block body (.consequence test.condition keyword.val.span.start) bs cs
      (some test.right.val)
    have hother := run_block other
      (.alternative test.condition body.tree keyword.val.span.start) bs cs (some otherwise.val)
    rw [close, List.reverse_reverse] at hbody hother
    have hotherwise : step ⟨.decided test.condition body.tree keyword.val.span.start, bs, cs,
          some body.closer.val⟩ otherwise.val =
        .ok ⟨.opening (.alternative test.condition body.tree keyword.val.span.start), bs, cs,
          some otherwise.val⟩ :=
      step_of_takes (.otherwise rfl otherwise.property)
    refine ⟨_, some other.closer.val, ?_, Agrees.refl _⟩
    rw [Phrase.tokens, run_cons_ok (step_branch bs cs l keyword.property),
      run_append_ok (run_test bs cs _ (.conditional keyword) test)]
    refine (run_append_ok hbody _).trans ?_
    rw [run_cons_ok hotherwise]
    exact hother
  | .loop keyword test body, bs, cs, l => by
    have hbody := run_block body (.loop test.condition keyword.val.span.start) bs cs
      (some test.right.val)
    rw [close, List.reverse_reverse] at hbody
    have hkeyword : step ⟨.between, bs, cs, l⟩ keyword.val =
        .ok ⟨.compared (.loop keyword), bs, cs, some keyword.val⟩ :=
      step_of_takes (.loop rfl keyword.property)
    refine ⟨_, some body.closer.val, ?_, Agrees.refl _⟩
    rw [Phrase.tokens, run_cons_ok hkeyword,
      run_append_ok (run_test bs cs _ (.loop keyword) test)]
    exact hbody

theorem run_block : ∀ (block : Block Phrase) (owner : BlockOwner) (bs : List OpenBlock)
    (cs : List Statement) (l : Option Token), run ⟨.opening owner, bs, cs, l⟩ block.tokens =
      .ok (close ⟨.between, [], block.tree.reverse, some block.closer.val⟩
        ⟨owner, block.opener, cs⟩ bs)
  | ⟨opener, body, closer⟩, owner, bs, cs, l => by
    obtain ⟨q, l', hrun, hagrees⟩ :=
      run_derivation body (⟨owner, opener, cs⟩ :: bs) [] (some opener.val)
    rw [List.append_nil] at hagrees
    have hopener : step ⟨.opening owner, bs, cs, l⟩ opener.val =
        .ok ⟨.between, ⟨owner, opener, cs⟩ :: bs, [], some opener.val⟩ :=
      step_of_takes (.opener rfl opener.property)
    rw [Block.tokens, run_cons_ok hopener,
      run_append_ok hrun, run_of_agrees hagrees (endsPhrase_closing closer.property),
      run_cons_ok (step_closer bs _ l' closer.property _)]
    rfl

/-- What is read after a derivation's tokens is read as if its statements were
complete, unless it continues the last of them. -/
theorem run_derivation : ∀ (d : List Phrase) (bs : List OpenBlock) (cs : List Statement)
    (l : Option Token), ∃ q l', run ⟨.between, bs, cs, l⟩ (Derivation.tokens d) = .ok q ∧
      q.Agrees ⟨.between, bs, (Derivation.tree d).reverse ++ cs, l'⟩
  | [], bs, cs, l => ⟨_, l, rfl, Agrees.refl _⟩
  | phrase :: d, bs, cs, l => by
    obtain ⟨q, l', hphrase, hagrees⟩ := run_phrase phrase bs cs l
    obtain ⟨q', l'', hrest, hagrees'⟩ := run_derivation d bs (phrase.tree :: cs) l'
    rw [Derivation.tokens, run_append_ok hphrase, Derivation.tree, List.reverse_cons,
      List.append_assoc]
    cases d with
    | nil => exact ⟨q, l', rfl, hagrees⟩
    | cons next d =>
      obtain ⟨t, ts, htokens, ht⟩ := phrase_tokens_cons next
      rw [Derivation.tokens, htokens, List.cons_append] at hrest ⊢
      have hends := endsPhrase_keyword ht (phrase_word_ne_otherwise next)
      exact ⟨q', l'', (run_of_agrees hagrees hends _).trans hrest, hagrees'⟩

end

end Reading

namespace Program

theorem ofTokens_eq_finish {tokens : List Token} {r : Reading}
    (h : Reading.start.run tokens = .ok r) : ofTokens tokens = r.finish := by
  unfold ofTokens
  change (Reading.start.run tokens >>= Reading.finish) = _
  rw [h]
  rfl

theorem ofTokens_derivation (d : Derivation) :
    ofTokens (Derivation.tokens d) = .ok (Derivation.tree d) := by
  obtain ⟨q, l, hrun, hagrees⟩ := Reading.run_derivation d [] [] none
  rw [ofTokens_eq_finish hrun, hagrees.finish, List.append_nil]
  change Except.ok (Derivation.tree d).reverse.reverse = _
  rw [List.reverse_reverse]

theorem exists_derivation_of_ofTokens {tokens : List Token} {p : Program}
    (h : ofTokens tokens = .ok p) :
    ∃ d : Derivation, Derivation.tokens d = tokens ∧ Derivation.tree d = p := by
  cases hrun : Reading.start.run tokens with
  | error e =>
    change (Reading.start.run tokens >>= Reading.finish) = _ at h
    rw [hrun] at h
    cases h
  | ok r =>
    rw [ofTokens_eq_finish hrun] at h
    have hcovers := Reading.covers_run Reading.covers_start hrun
    exact Reading.covers_finish hcovers h

/-- The parser accepts the token lists that the grammar derives and no others,
and gives the tree of a derivation. There is only one derivation, in which a
second block that is empty counts for nothing. -/
theorem ofTokens_iff_derivation (tokens : List Token) :
    (∀ p, ofTokens tokens = .ok p ↔
      ∃ d : Derivation, Derivation.tokens d = tokens ∧ Derivation.tree d = p) ∧
    ((∃ d : Derivation, Derivation.tokens d = tokens) ↔
      ∃! d : Derivation, Derivation.tokens d = tokens) ∧
    ∀ keyword test body otherwise opener closer,
      (Phrase.alternative keyword test body otherwise ⟨opener, [], closer⟩).tree =
        (Phrase.conditional keyword test body).tree := by
  refine ⟨?_, ⟨?_, ExistsUnique.exists⟩, ?_⟩
  · intro p
    constructor
    · exact exists_derivation_of_ofTokens
    · rintro ⟨d, rfl, rfl⟩
      exact ofTokens_derivation d
  · rintro ⟨d, rfl⟩
    exact ⟨d, rfl, fun e he => derivation_tokens_injective he⟩
  · intro keyword test body otherwise opener closer
    simp only [Phrase.tree, Block.tree, Derivation.tree]

end Program

end Crafter
