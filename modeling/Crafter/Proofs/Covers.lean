import Crafter.Proofs.Taking

/-! What a reading has read so far is spread over its open blocks, its complete
statements and its mode. `Covers` puts the tokens together again: each part
covers the tokens that it stands for. -/
namespace Crafter

open Grammar

inductive ExpressionOwner.Covers : ExpressionOwner → List Token → Prop where
  | declaration (keyword : Terminal (.keyword .declare)) (name : String)
      (target : Terminal (.identifier name)) (equals : Terminal (.operator "=")) :
      Covers (.declaration keyword name target) [keyword.val, target.val, equals.val]
  | print (keyword : Terminal (.keyword .print)) : Covers (.print keyword) [keyword.val]

inductive ComparisonOwner.Covers : ComparisonOwner → List Token → Prop where
  | conditional (keyword : Terminal (.keyword .branch)) :
      Covers (.conditional keyword) [keyword.val]
  | loop (keyword : Terminal (.keyword .loop)) : Covers (.loop keyword) [keyword.val]

inductive BlockOwner.Covers : BlockOwner → List Token → Prop where
  | consequence (keyword : Terminal (.keyword .branch)) (test : Test) :
      Covers (.consequence test.condition keyword.val.span.start) (keyword.val :: test.tokens)
  | alternative (keyword : Terminal (.keyword .branch)) (test : Test) (body : Block Phrase)
      (otherwise : Terminal (.keyword .otherwise)) :
      Covers (.alternative test.condition body.tree keyword.val.span.start)
        (keyword.val :: (test.tokens ++ (body.tokens ++ [otherwise.val])))
  | loop (keyword : Terminal (.keyword .loop)) (test : Test) :
      Covers (.loop test.condition keyword.val.span.start) (keyword.val :: test.tokens)

inductive Mode.Covers : Mode → List Token → Prop where
  | between : Covers .between []
  | declared (keyword : Terminal (.keyword .declare)) : Covers (.declared keyword) [keyword.val]
  | named (keyword : Terminal (.keyword .declare)) (name : String)
      (target : Terminal (.identifier name)) :
      Covers (.named keyword name target) [keyword.val, target.val]
  | printing (keyword : Terminal (.keyword .print)) : Covers (.printing keyword) [keyword.val]
  | expression {owner : ExpressionOwner} {us : List Token} (h : owner.Covers us)
      (parts : List Token) (plain : ∀ t ∈ parts, IsPart t) :
      Covers (.expression owner (parts.map (·.span.text)).reverse) (us ++ parts)
  | compared {owner : ComparisonOwner} {us : List Token} (h : owner.Covers us) :
      Covers (.compared owner) us
  | related {owner : ComparisonOwner} {us : List Token} (h : owner.Covers us)
      (left : {t : Token // IsOperand t}) : Covers (.related owner left) (us ++ [left.val])
  | closing {owner : ComparisonOwner} {us : List Token} (h : owner.Covers us)
      (left : {t : Token // IsOperand t}) (comparison : String)
      (known : comparison ∈ comparisons) (operator : Terminal (.operator comparison)) :
      Covers (.closing owner left comparison) (us ++ [left.val, operator.val])
  | opening {owner : BlockOwner} {us : List Token} (h : owner.Covers us) :
      Covers (.opening owner) us
  | decided (keyword : Terminal (.keyword .branch)) (test : Test) (body : Block Phrase) :
      Covers (.decided test.condition body.tree keyword.val.span.start)
        (keyword.val :: (test.tokens ++ body.tokens))

/-- The tokens up to the innermost open brace. -/
inductive OpenBlock.Cover : List OpenBlock → List Token → Prop where
  | nil : Cover [] []
  | cons {blocks : List OpenBlock} {ts us : List Token} {owner : BlockOwner}
      (outer : Cover blocks ts) (before : Derivation) (h : owner.Covers us)
      (opener : Terminal (.brace .opening)) :
      Cover (⟨owner, opener, (Derivation.tree before).reverse⟩ :: blocks)
        (ts ++ (Derivation.tokens before ++ (us ++ [opener.val])))

namespace Reading

/-- The reading stands for exactly these tokens: they are the open blocks, the
complete statements and the statement under way, one after the other. -/
inductive Covers (r : Reading) : List Token → Prop where
  | intro {ts us : List Token} (blocks : OpenBlock.Cover r.blocks ts) (d : Derivation)
      (complete : r.complete = (Derivation.tree d).reverse) (mode : r.mode.Covers us) :
      Covers r (ts ++ (Derivation.tokens d ++ us))

theorem covers_start : start.Covers [] := @Covers.intro start [] [] .nil [] rfl .between

theorem covers_add {r : Reading} {ts : List Token} (blocks : OpenBlock.Cover r.blocks ts)
    {d : Derivation} (complete : r.complete = (Derivation.tree d).reverse) (phrase : Phrase) :
    (r.add phrase.tree).Covers (ts ++ (Derivation.tokens d ++ phrase.tokens)) := by
  have htokens : Derivation.tokens d ++ phrase.tokens = Derivation.tokens (d ++ [phrase]) ++ [] := by
    rw [derivation_tokens_append, Derivation.tokens, Derivation.tokens, List.append_nil,
      List.append_nil]
  rw [htokens]
  refine @Covers.intro (r.add phrase.tree) ts [] blocks (d ++ [phrase]) ?_ .between
  rw [derivation_tree_append, List.reverse_append]
  change phrase.tree :: r.complete = _
  rw [complete]
  rfl

/-- Settling moves the end of a statement, and no token. -/
theorem covers_settle {r q : Reading} {ts : List Token} (hr : r.Covers ts)
    (h : r.settle = .ok q) : q.Covers ts := by
  have hcovers := hr
  obtain ⟨blocks, d, complete, mode⟩ := hr
  obtain ⟨m, bs, cs, l⟩ := r
  cases mode with
  | printing => cases h
  | @expression owner us hus parts plain =>
    cases parts with
    | nil => cases hus <;> cases h
    | cons t parts =>
      let value : Run := ⟨t :: parts, List.cons_ne_nil t parts, plain⟩
      have hne : ((t :: parts).map (·.span.text)).reverse ≠ [] := by simp
      have htext := joinParts_map_reverse value
      cases hus with
      | declaration keyword name target equals =>
        rw [settle_declaration rfl hne, htext] at h
        cases h
        exact covers_add blocks complete (.declaration keyword name target equals value)
      | print keyword =>
        rw [settle_print rfl hne, htext] at h
        cases h
        exact covers_add blocks complete (.printValue keyword value)
  | decided keyword test body =>
    cases h
    exact covers_add blocks complete (.conditional keyword test body)
  | _ =>
    cases h
    exact hcovers

/-- A statement goes on to a mode that covers one token more. -/
theorem covers_enter {r : Reading} {ts us vs : List Token} {t : Token} {mode : Mode}
    (blocks : OpenBlock.Cover r.blocks ts) {d : Derivation}
    (complete : r.complete = (Derivation.tree d).reverse) (hvs : us ++ [t] = vs)
    (hmode : mode.Covers vs) :
    Covers { r with mode := mode } (ts ++ (Derivation.tokens d ++ us) ++ [t]) := by
  rw [List.append_assoc, List.append_assoc, hvs]
  exact @Covers.intro { r with mode := mode } ts vs blocks d complete hmode

/-- A closing brace completes the innermost block, and with it a statement or
the first of its two blocks. -/
theorem covers_close {r : Reading} {ts : List Token} {block : OpenBlock} {outer : List OpenBlock}
    (blocks : OpenBlock.Cover (block :: outer) ts) {d : Derivation}
    (complete : r.complete = (Derivation.tree d).reverse) (closer : Terminal (.brace .closing)) :
    (r.close block outer).Covers (ts ++ Derivation.tokens d ++ [closer.val]) := by
  cases blocks with
  | @cons _ ts us owner houter before howner opener =>
    have hbody : r.complete.reverse = Derivation.tree d := by rw [complete, List.reverse_reverse]
    let body : Block Phrase := ⟨opener, d, closer⟩
    have htokens : ts ++ (Derivation.tokens before ++ (us ++ [opener.val])) ++ Derivation.tokens d ++
        [closer.val] = ts ++ (Derivation.tokens before ++ (us ++ body.tokens)) := by
      simp only [body, Block.tokens, List.append_assoc, List.cons_append, List.nil_append]
    rw [htokens]
    unfold close
    rw [hbody]
    let around : Reading :=
      { r with blocks := outer, complete := (Derivation.tree before).reverse }
    cases howner with
    | consequence keyword test =>
      exact @Covers.intro { around with mode := _ } _ _ houter before rfl
        (.decided keyword test body)
    | alternative keyword test first otherwise =>
      have hadd := @covers_add around _ houter before rfl
        (.alternative keyword test first otherwise body)
      simp only [Phrase.tokens] at hadd
      simp only [List.append_assoc, List.cons_append, List.nil_append]
      exact hadd
    | loop keyword test => exact @covers_add around _ houter before rfl (.loop keyword test body)

/-- An opening brace puts what has been read of the statement on top of the open
blocks, and the block starts empty. -/
theorem covers_opener {r : Reading} {ts us : List Token} {t : Token}
    (blocks : OpenBlock.Cover r.blocks ts) {d : Derivation}
    (complete : r.complete = (Derivation.tree d).reverse) {owner : BlockOwner}
    (hus : owner.Covers us) (ht : t.lexeme = .brace .opening) :
    Covers
      { r with mode := .between, blocks := ⟨owner, t, r.complete⟩ :: r.blocks, complete := [] }
      (ts ++ (Derivation.tokens d ++ us) ++ [t]) := by
  have hblocks := OpenBlock.Cover.cons blocks d hus ⟨t, ht⟩
  rw [← complete] at hblocks
  have hcovers := @Covers.intro ⟨.between, _, [], r.last⟩ _ [] hblocks [] rfl .between
  rw [Derivation.tokens, List.nil_append, List.append_nil] at hcovers
  rw [List.append_assoc, List.append_assoc]
  exact hcovers

theorem covers_takes {r q : Reading} {ts : List Token} {t : Token} (hr : r.Covers ts)
    (h : r.Takes t q) : q.Covers (ts ++ [t]) := by
  obtain ⟨blocks, d, complete, mode⟩ := hr
  cases h with
  | declare hmode ht =>
    rw [hmode] at mode
    cases mode
    exact covers_enter blocks complete rfl (.declared ⟨t, ht⟩)
  | print hmode ht =>
    rw [hmode] at mode
    cases mode
    exact covers_enter blocks complete rfl (.printing ⟨t, ht⟩)
  | branch hmode ht =>
    rw [hmode] at mode
    cases mode
    exact covers_enter blocks complete rfl (.compared (.conditional ⟨t, ht⟩))
  | loop hmode ht =>
    rw [hmode] at mode
    cases mode
    exact covers_enter blocks complete rfl (.compared (.loop ⟨t, ht⟩))
  | closer hmode hblocks ht =>
    rw [hmode] at mode
    cases mode
    rw [hblocks] at blocks
    rw [List.append_nil]
    exact covers_close blocks complete ⟨t, ht⟩
  | name hmode ht =>
    rw [hmode] at mode
    cases mode with
    | declared keyword => exact covers_enter blocks complete rfl (.named keyword _ ⟨t, ht⟩)
  | equals hmode ht =>
    rw [hmode] at mode
    cases mode with
    | named keyword _ target =>
      exact covers_enter blocks complete (List.append_nil _).symm
        (.expression (.declaration keyword _ target ⟨t, ht⟩) [] nofun)
  | text hmode ht =>
    rw [hmode] at mode
    cases mode with
    | printing keyword =>
      rw [List.append_assoc, List.append_assoc]
      exact covers_add blocks complete (.printText keyword _ ⟨t, ht⟩)
  | firstPart hmode ht =>
    rw [hmode] at mode
    cases mode with
    | printing keyword =>
      exact covers_enter blocks complete rfl
        (.expression (.print keyword) [t] (by simpa using ht))
  | part hmode ht =>
    rw [hmode] at mode
    cases mode with
    | expression hus parts plain =>
      have hparts : ∀ u ∈ parts ++ [t], IsPart u := by
        intro u hu
        rcases List.mem_append.mp hu with hu | hu
        · exact plain u hu
        · rw [List.mem_singleton.mp hu]
          exact ht
      have hexpression := Mode.Covers.expression hus (parts ++ [t]) hparts
      rw [List.map_append, List.reverse_append] at hexpression
      exact covers_enter blocks complete (List.append_assoc ..) hexpression
  | left hmode ht =>
    rw [hmode] at mode
    cases mode with
    | compared hus => exact covers_enter blocks complete rfl (.related hus ⟨t, ht⟩)
  | operator hmode known ht =>
    rw [hmode] at mode
    cases mode with
    | related hus left =>
      exact covers_enter blocks complete (List.append_assoc ..)
        (.closing hus left _ known ⟨t, ht⟩)
  | right hmode ht =>
    rw [hmode] at mode
    cases mode with
    | closing hus left _ known operator =>
      let test : Test := ⟨left, _, known, operator, ⟨t, ht⟩⟩
      cases hus with
      | conditional keyword =>
        exact covers_enter blocks complete rfl (.opening (.consequence keyword test))
      | loop keyword => exact covers_enter blocks complete rfl (.opening (.loop keyword test))
  | opener hmode ht =>
    rw [hmode] at mode
    cases mode with
    | opening hus => exact covers_opener blocks complete hus ht
  | otherwise hmode ht =>
    rw [hmode] at mode
    cases mode with
    | decided keyword test body =>
      exact covers_enter blocks complete rfl (.opening (.alternative keyword test body ⟨t, ht⟩))

theorem covers_last {r : Reading} {ts : List Token} (hr : r.Covers ts) (last : Option Token) :
    Covers { r with last := last } ts := by
  cases hr with
  | intro blocks d complete mode =>
    exact @Covers.intro { r with last := last } _ _ blocks d complete mode

theorem covers_step {r r' : Reading} {ts : List Token} {t : Token} (hr : r.Covers ts)
    (h : r.step t = .ok r') : r'.Covers (ts ++ [t]) := by
  obtain ⟨q, q', hq, htakes, rfl⟩ := step_cases h
  have hcovers : q.Covers ts := by
    rcases hq with rfl | hsettle
    · exact hr
    · exact covers_settle hr hsettle
  exact covers_last (covers_takes hcovers htakes) (some t)

theorem covers_run {r r' : Reading} {ts us : List Token} (hr : r.Covers ts)
    (h : r.run us = .ok r') : r'.Covers (ts ++ us) := by
  -- the tokens that are covered grow by those that are still to be read
  induction us generalizing r ts with
  | nil =>
    cases h
    rwa [List.append_nil]
  | cons t us ih =>
    obtain ⟨q, hstep, hrun⟩ := run_cons_eq_ok h
    have hcovers := ih (covers_step hr hstep) hrun
    rwa [List.append_assoc] at hcovers

/-- Where the tokens end and all blocks are closed, a derivation is complete. -/
theorem covers_finish {r : Reading} {ts : List Token} {p : Program} (hr : r.Covers ts)
    (h : r.finish = .ok p) : ∃ d : Derivation, Derivation.tokens d = ts ∧ Derivation.tree d = p := by
  obtain ⟨q, hsettle, hmode, hblocks, hp⟩ := finish_eq_ok h
  cases covers_settle hr hsettle with
  | intro blocks d complete mode =>
    rw [hblocks] at blocks
    rw [hmode] at mode
    cases blocks
    cases mode
    refine ⟨d, by rw [List.nil_append, List.append_nil], ?_⟩
    rw [← hp, complete, List.reverse_reverse]

end Reading

end Crafter
