import Crafter.Proofs.Stepping
import Mathlib.Data.List.Forall2

/-! Two token lists that differ only in what their strings say are read in step with
each other: the parser goes through the same modes and opens the same blocks. If one
of the lists is refused, so is the other one, for the same reason; only a message that
quotes a string may read differently. -/
namespace Crafter

/-- Both say the same, or both are strings. -/
inductive Lexeme.Alike : Lexeme → Lexeme → Prop where
  | same (lexeme : Lexeme) : Alike lexeme lexeme
  | string (contents contents' : String) : Alike (.string contents) (.string contents')

theorem Lexeme.Alike.operator_iff {a b : Lexeme} (h : a.Alike b) (spelling : String) :
    a = .operator spelling ↔ b = .operator spelling := by
  cases h with
  | same => exact Iff.rfl
  | string => exact iff_of_false nofun nofun

theorem Lexeme.Alike.brace_iff {a b : Lexeme} (h : a.Alike b) (side : Brace) :
    a = .brace side ↔ b = .brace side := by
  cases h with
  | same => exact Iff.rfl
  | string => exact iff_of_false nofun nofun

/-- The fault of a token that may not stand where it does, with what is asked for
instead if that is one thing. -/
def SyntaxFault.unexpected : Option Expected → String → SyntaxFault
  | none, value => .strayToken value
  | some wanted, value => .wrongToken value wanted

/-- The message quotes what a string among the tokens says: that string may not stand
where it does. -/
def SyntaxError.Quotes (tokens : List Token) (e : SyntaxError) (contents : String) : Prop :=
  ∃ t ∈ tokens, t.lexeme = .string contents ∧ e.start = t.span.start ∧
    ∃ wanted, e.fault = .unexpected wanted contents

/-- The errors say the same, or each of them quotes a string. -/
def SyntaxError.Alike (tokens tokens' : List Token) (e e' : SyntaxError) : Prop :=
  e.fault = e'.fault ∨
    ∃ contents contents', e.Quotes tokens contents ∧ e'.Quotes tokens' contents'

/-- Two results of reading: both are values that are related, or both are errors that
are alike. -/
inductive Together (tokens tokens' : List Token) {α β : Type} (R : α → β → Prop) :
    Except SyntaxError α → Except SyntaxError β → Prop where
  | ok {a : α} {b : β} (h : R a b) : Together tokens tokens' R (.ok a) (.ok b)
  | error {e e' : SyntaxError} (h : e.Alike tokens tokens' e') :
      Together tokens tokens' R (.error e) (.error e')

/-- A token of the one list and a token of the other that say the same, strings
apart. -/
structure Token.Paired (tokens tokens' : List Token) (t t' : Token) : Prop where
  left : t ∈ tokens
  right : t' ∈ tokens'
  lexeme : t.lexeme.Alike t'.lexeme

variable {tokens tokens' : List Token}

namespace Together

variable {α β γ δ : Type} {R : α → β → Prop} {S : γ → δ → Prop}

theorem bind {x : Except SyntaxError α} {y : Except SyntaxError β}
    {next : α → Except SyntaxError γ} {next' : β → Except SyntaxError δ}
    (h : Together tokens tokens' R x y)
    (hnext : ∀ a b, x = .ok a → R a b → Together tokens tokens' S (next a) (next' b)) :
    Together tokens tokens' S (x >>= next) (y >>= next') := by
  cases h with
  | ok h => exact hnext _ _ rfl h
  | error h => exact .error h

/-- What holds of one token on each side holds of the lists. -/
theorem foldlM {step : α → Token → Except SyntaxError α} {step' : β → Token → Except SyntaxError β}
    (hstep : ∀ a b, R a b → ∀ t t', t.Paired tokens tokens' t' →
      Together tokens tokens' R (step a t) (step' b t'))
    {ts ts' : List Token} (hpairs : List.Forall₂ (Token.Paired tokens tokens') ts ts')
    {a : α} {b : β} (h : R a b) :
    Together tokens tokens' R (ts.foldlM step a) (ts'.foldlM step' b) := by
  induction hpairs generalizing a b with
  | nil => exact .ok h
  | cons hpair _ ih =>
    rw [List.foldlM_cons, List.foldlM_cons]
    exact (hstep a b h _ _ hpair).bind fun _ _ _ hnext => ih hnext

/-- The same fault on both sides. -/
theorem fault {e e' : SyntaxError} (h : e.fault = e'.fault) :
    Together tokens tokens' R (.error e) (.error e') := .error (Or.inl h)

/-- Both sides refuse the token. -/
theorem refuse {t t' : Token} (h : t.Paired tokens tokens' t') (wanted : Option Expected) :
    Together tokens tokens' R (.error (.atToken (.unexpected wanted t.lexeme.value) t))
      (.error (.atToken (.unexpected wanted t'.lexeme.value) t')) := by
  obtain ⟨ht, ht', halike⟩ := h
  obtain ⟨lexeme, span⟩ := t
  obtain ⟨lexeme', span'⟩ := t'
  cases halike with
  | same => exact fault rfl
  | string contents contents' =>
    exact .error (Or.inr ⟨contents, contents', ⟨_, ht, rfl, rfl, wanted, rfl⟩,
      ⟨_, ht', rfl, rfl, wanted, rfl⟩⟩)

end Together

/-! Readings that are in step with each other agree on what may come next. What the
statements say that were read before has no influence on that. -/

inductive ExpressionOwner.Alike : ExpressionOwner → ExpressionOwner → Prop where
  | declaration (keyword keyword' : Token) (name name' : String) (target target' : Token) :
      Alike (.declaration keyword name target) (.declaration keyword' name' target')
  | print (keyword keyword' : Token) : Alike (.print keyword) (.print keyword')

inductive ComparisonOwner.Alike : ComparisonOwner → ComparisonOwner → Prop where
  | conditional (keyword keyword' : Token) : Alike (.conditional keyword) (.conditional keyword')
  | loop (keyword keyword' : Token) : Alike (.loop keyword) (.loop keyword')

inductive BlockOwner.Alike : BlockOwner → BlockOwner → Prop where
  | consequence (test test' : Condition) (loc loc' : Position) :
      Alike (.consequence test loc) (.consequence test' loc')
  | alternative (test test' : Condition) (body body' : List Statement) (loc loc' : Position) :
      Alike (.alternative test body loc) (.alternative test' body' loc')
  | loop (test test' : Condition) (loc loc' : Position) : Alike (.loop test loc) (.loop test' loc')

theorem ComparisonOwner.Alike.block {owner owner' : ComparisonOwner} (h : owner.Alike owner')
    (test test' : Condition) : (owner.block test).Alike (owner'.block test') := by
  cases h with
  | conditional => exact .consequence ..
  | loop => exact .loop ..

inductive Mode.Alike : Mode → Mode → Prop where
  | between : Alike .between .between
  | declared (keyword keyword' : Token) : Alike (.declared keyword) (.declared keyword')
  | named (keyword keyword' : Token) (name name' : String) (target target' : Token) :
      Alike (.named keyword name target) (.named keyword' name' target')
  | printing (keyword keyword' : Token) : Alike (.printing keyword) (.printing keyword')
  | expression {owner owner' : ExpressionOwner} (howner : owner.Alike owner')
      {parts parts' : List String} (hparts : parts = [] ↔ parts' = []) :
      Alike (.expression owner parts) (.expression owner' parts')
  | compared {owner owner' : ComparisonOwner} (howner : owner.Alike owner') :
      Alike (.compared owner) (.compared owner')
  | related {owner owner' : ComparisonOwner} (howner : owner.Alike owner') (left left' : Token) :
      Alike (.related owner left) (.related owner' left')
  | closing {owner owner' : ComparisonOwner} (howner : owner.Alike owner') (left left' : Token)
      (operator operator' : String) :
      Alike (.closing owner left operator) (.closing owner' left' operator')
  | opening {owner owner' : BlockOwner} (howner : owner.Alike owner') :
      Alike (.opening owner) (.opening owner')
  | decided (test test' : Condition) (body body' : List Statement) (loc loc' : Position) :
      Alike (.decided test body loc) (.decided test' body' loc')

def OpenBlock.Alike (block block' : OpenBlock) : Prop := block.owner.Alike block'.owner

structure Reading.Alike (r r' : Reading) : Prop where
  mode : r.mode.Alike r'.mode
  blocks : List.Forall₂ OpenBlock.Alike r.blocks r'.blocks

namespace Reading

variable {r r' : Reading} {t t' : Token}

theorem Alike.expected (h : r.Alike r') : expected r.mode = Reading.expected r'.mode := by
  obtain ⟨mode, blocks, complete, last⟩ := r
  obtain ⟨mode', blocks', complete', last'⟩ := r'
  obtain ⟨hmode, hblocks⟩ := h
  cases hmode <;> rfl

theorem Alike.continues (h : r.Alike r') (ht : t.lexeme.Alike t'.lexeme) :
    r.continues t = r'.continues t' := by
  obtain ⟨mode, blocks, complete, last⟩ := r
  obtain ⟨mode', blocks', complete', last'⟩ := r'
  obtain ⟨lexeme, span⟩ := t
  obtain ⟨lexeme', span'⟩ := t'
  obtain ⟨hmode, hblocks⟩ := h
  cases ht with
  | string => cases hmode <;> rfl
  | same =>
    cases hmode with
    | printing => cases lexeme <;> rfl
    | decided => cases lexeme with
      | keyword word => cases word <;> rfl
      | _ => rfl
    | _ => rfl

theorem Alike.settle (h : r.Alike r') :
    Together tokens tokens' Alike r.settle r'.settle := by
  obtain ⟨mode, blocks, complete, last⟩ := r
  obtain ⟨mode', blocks', complete', last'⟩ := r'
  obtain ⟨hmode, hblocks⟩ := h
  cases hmode with
  | printing => exact .fault rfl
  | @expression _ _ howner parts parts' hparts =>
    cases parts with
    | nil =>
      obtain rfl := hparts.mp rfl
      cases howner <;> exact .fault rfl
    | cons part parts =>
      have hne : parts' ≠ [] := mt hparts.mpr (List.cons_ne_nil _ _)
      obtain ⟨part', rest', rfl⟩ := List.exists_cons_of_ne_nil hne
      cases howner <;> exact .ok ⟨.between, hblocks⟩
  | decided => exact .ok ⟨.between, hblocks⟩
  | between => exact .ok ⟨.between, hblocks⟩
  | declared => exact .ok ⟨.declared .., hblocks⟩
  | named => exact .ok ⟨.named .., hblocks⟩
  | compared howner => exact .ok ⟨.compared howner, hblocks⟩
  | related howner => exact .ok ⟨.related howner .., hblocks⟩
  | closing howner => exact .ok ⟨.closing howner .., hblocks⟩
  | opening howner => exact .ok ⟨.opening howner, hblocks⟩

theorem Alike.close (r r' : Reading) {block block' : OpenBlock} (hblock : block.Alike block')
    {outer outer' : List OpenBlock} (houter : List.Forall₂ OpenBlock.Alike outer outer') :
    (r.close block outer).Alike (r'.close block' outer') := by
  obtain ⟨owner, opener, before⟩ := block
  obtain ⟨owner', opener', before'⟩ := block'
  cases hblock with
  | consequence => exact ⟨.decided .., houter⟩
  | alternative => exact ⟨.between, houter⟩
  | loop => exact ⟨.between, houter⟩

theorem Alike.begin (h : r.Alike r') (ht : t.Paired tokens tokens' t') :
    Together tokens tokens' Alike (r.begin t) (r'.begin t') := by
  have hstray := Together.refuse (R := Alike) ht none
  have hwrong := Together.refuse (R := Alike) ht (some (.brace .closing))
  obtain ⟨mode, blocks, complete, last⟩ := r
  obtain ⟨mode', blocks', complete', last'⟩ := r'
  obtain ⟨lexeme, span⟩ := t
  obtain ⟨lexeme', span'⟩ := t'
  obtain ⟨-, hblocks⟩ := h
  obtain ⟨-, -, hlexeme⟩ := ht
  cases hlexeme with
  | string => exact hstray
  | same =>
    cases lexeme with
    | keyword word =>
      cases word with
      | declare => exact .ok ⟨.declared .., hblocks⟩
      | print => exact .ok ⟨.printing .., hblocks⟩
      | branch => exact .ok ⟨.compared (.conditional ..), hblocks⟩
      | loop => exact .ok ⟨.compared (.loop ..), hblocks⟩
      | otherwise => exact hstray
    | brace side =>
      cases hblocks with
      | nil => cases side <;> exact hstray
      | cons hblock houter =>
        cases side with
        | opening => exact hwrong
        | closing => exact .ok (Alike.close _ _ hblock houter)
    | _ => exact hstray

/-- A token that is no operand is refused on both sides. -/
theorem operand_together (ht : t.Paired tokens tokens' t') :
    Together tokens tokens' (fun _ _ => True) (operand t) (operand t') := by
  have hwrong := Together.refuse (R := fun _ _ : Token => True) ht (some .operand)
  obtain ⟨lexeme, span⟩ := t
  obtain ⟨lexeme', span'⟩ := t'
  obtain ⟨-, -, hlexeme⟩ := ht
  cases hlexeme with
  | string => exact hwrong
  | same =>
    cases lexeme with
    | identifier | number => exact .ok trivial
    | _ => exact hwrong

theorem Alike.take (h : r.Alike r') (ht : t.Paired tokens tokens' t') (hc : r.continues t = true) :
    Together tokens tokens' Alike (r.take t) (r'.take t') := by
  have hwrong (wanted : Expected) := Together.refuse (R := Alike) ht (some wanted)
  have hbegin := h.begin ht
  have hoperand := operand_together ht
  obtain ⟨mode, blocks, complete, last⟩ := r
  obtain ⟨mode', blocks', complete', last'⟩ := r'
  obtain ⟨hmode, hblocks⟩ := h
  cases hmode with
  | between => exact hbegin
  | declared =>
    obtain ⟨lexeme, span⟩ := t
    obtain ⟨lexeme', span'⟩ := t'
    obtain ⟨-, -, hlexeme⟩ := ht
    cases hlexeme with
    | string => exact hwrong .name
    | same =>
      cases lexeme with
      | identifier => exact .ok ⟨.named .., hblocks⟩
      | _ => exact hwrong .name
  | named =>
    have hequals := ht.lexeme.operator_iff "="
    unfold take
    dsimp only
    by_cases heq : t.lexeme = .operator "="
    · rw [if_pos heq, if_pos (hequals.mp heq)]
      exact .ok ⟨.expression (.declaration ..) Iff.rfl, hblocks⟩
    · rw [if_neg heq, if_neg (mt hequals.mpr heq)]
      exact hwrong .equals
  | printing =>
    obtain ⟨lexeme, span⟩ := t
    obtain ⟨lexeme', span'⟩ := t'
    obtain ⟨-, -, hlexeme⟩ := ht
    have hparts (text text' : String) : [text] = [] ↔ [text'] = [] :=
      iff_of_false (List.cons_ne_nil _ _) (List.cons_ne_nil _ _)
    cases hlexeme with
    | string => exact .ok ⟨.between, hblocks⟩
    | same =>
      cases lexeme with
      | string => exact .ok ⟨.between, hblocks⟩
      | keyword | brace => cases hc
      | _ => exact .ok ⟨.expression (.print ..) (hparts ..), hblocks⟩
  | expression howner =>
    refine .ok ⟨.expression howner ?_, hblocks⟩
    exact iff_of_false (List.cons_ne_nil _ _) (List.cons_ne_nil _ _)
  | compared howner => exact hoperand.bind fun left left' _ _ => .ok ⟨.related howner .., hblocks⟩
  | related howner left left' =>
    obtain ⟨lexeme, span⟩ := t
    obtain ⟨lexeme', span'⟩ := t'
    obtain ⟨-, -, hlexeme⟩ := ht
    cases hlexeme with
    | string => exact hwrong .operator
    | same =>
      cases lexeme with
      | operator spelling =>
        unfold take
        dsimp only
        split
        · exact .ok ⟨.closing howner .., hblocks⟩
        · exact .fault rfl
      | _ => exact hwrong .operator
  | closing howner left left' =>
    exact hoperand.bind fun right right' _ _ => .ok ⟨.opening (howner.block ..), hblocks⟩
  | opening howner =>
    have hbrace := ht.lexeme.brace_iff .opening
    unfold take
    dsimp only
    by_cases heq : t.lexeme = .brace .opening
    · rw [if_pos heq, if_pos (hbrace.mp heq)]
      exact .ok ⟨.between, .cons howner hblocks⟩
    · rw [if_neg heq, if_neg (mt hbrace.mpr heq)]
      exact hwrong (.brace .opening)
  | decided => exact .ok ⟨.opening (.alternative ..), hblocks⟩

/-- One token further, the readings are still in step. -/
theorem Alike.step (h : r.Alike r') (ht : t.Paired tokens tokens' t') :
    Together tokens tokens' Alike (r.step t) (r'.step t') := by
  have htake {q q' : Reading} (hq : q.Alike q') (hc : q.continues t = true) :
      Together tokens tokens' Alike (q.take t >>= fun q => .ok { q with last := some t })
        (q'.take t' >>= fun q => .ok { q with last := some t' }) :=
    (hq.take ht hc).bind fun _ _ _ hnext => .ok ⟨hnext.mode, hnext.blocks⟩
  unfold Reading.step
  rw [← h.continues ht.lexeme]
  cases hc : r.continues t with
  | true => exact htake h hc
  | false =>
    refine h.settle.bind fun q q' hq hsettled => htake hsettled ?_
    exact continues_between (mode_of_settle hq (expected_of_not_continues hc)) t

theorem Alike.finish (h : r.Alike r') :
    Together tokens tokens' (fun _ _ => True) r.finish r'.finish := by
  have hlast (wanted : Expected) :
      (SyntaxError.atLast (.endOfInput wanted) r.last).fault =
        (SyntaxError.atLast (.endOfInput wanted) r'.last).fault := by
    cases r.last <;> cases r'.last <;> rfl
  unfold Reading.finish
  rw [← h.expected]
  cases Reading.expected r.mode with
  | some wanted => exact .fault (hlast wanted)
  | none =>
    refine h.settle.bind fun q q' _ hq => ?_
    obtain ⟨mode, blocks, complete, last⟩ := q
    obtain ⟨mode', blocks', complete', last'⟩ := q'
    obtain ⟨-, hblocks⟩ := hq
    cases hblocks with
    | nil => exact .ok trivial
    | cons => exact .fault rfl

theorem alike_start : start.Alike start := ⟨.between, .nil⟩

end Reading

namespace Source

/-- As many braces are open on both sides. -/
theorem balanceStep_together {opened opened' : List Token}
    (h : opened.length = opened'.length) {t t' : Token} (ht : t.lexeme.Alike t'.lexeme) :
    Together tokens tokens' (fun a b => a.length = b.length) (balanceStep opened t)
      (balanceStep opened' t') := by
  obtain ⟨lexeme, span⟩ := t
  obtain ⟨lexeme', span'⟩ := t'
  cases ht with
  | string => exact .ok h
  | same =>
    cases lexeme with
    | brace side =>
      cases side with
      | opening => exact .ok (congrArg (· + 1) h)
      | closing =>
        cases opened with
        | nil =>
          obtain rfl := List.length_eq_zero_iff.mp h.symm
          exact .fault rfl
        | cons opener rest =>
          obtain ⟨opener', rest', rfl⟩ := List.exists_cons_of_length_eq_add_one h.symm
          exact .ok (Nat.succ_inj.mp h)
    | _ => exact .ok h

theorem checkBalance_together (h : List.Forall₂ (Token.Paired tokens tokens') tokens tokens') :
    Together tokens tokens' (fun _ _ => True) (checkBalance tokens) (checkBalance tokens') := by
  have hfold : Together tokens tokens' (fun a b => a.length = b.length)
      (tokens.foldlM balanceStep []) (tokens'.foldlM balanceStep []) :=
    .foldlM (fun _ _ hlength _ _ ht => balanceStep_together hlength ht.lexeme) h rfl
  unfold checkBalance
  generalize tokens.foldlM balanceStep [] = result at hfold
  generalize tokens'.foldlM balanceStep [] = result' at hfold
  cases hfold with
  | error h => exact .error h
  | @ok opened opened' hlength =>
    cases opened with
    | nil =>
      obtain rfl := List.length_eq_zero_iff.mp hlength.symm
      exact .ok trivial
    | cons opener rest =>
      obtain ⟨opener', rest', rfl⟩ := List.exists_cons_of_length_eq_add_one hlength.symm
      exact .fault rfl

end Source

namespace Program

/-- Token lists that differ only in what their strings say are both accepted, or they
are refused with errors that are alike. -/
theorem ofBalancedTokens_together
    (h : List.Forall₂ (Token.Paired tokens tokens') tokens tokens') :
    Together tokens tokens' (fun _ _ => True) (ofBalancedTokens tokens)
      (ofBalancedTokens tokens') := by
  refine (Source.checkBalance_together h).bind fun _ _ _ _ => ?_
  have hrun : Together tokens tokens' Reading.Alike (tokens.foldlM Reading.step Reading.start)
      (tokens'.foldlM Reading.step Reading.start) :=
    .foldlM (fun _ _ hr _ _ ht => hr.step ht) h Reading.alike_start
  exact hrun.bind fun _ _ _ hr => hr.finish

end Program

end Crafter
