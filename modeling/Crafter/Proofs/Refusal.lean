import Crafter.Proofs.Stepping

/-! Where and why the parser refuses a token list: the four ways in which a
token is refused, and the three in which the end of the tokens is. -/
namespace Crafter.Reading

/-- What a reading that cannot be settled lacks: an expression, after the equals
sign of a declaration or after `likho`. -/
inductive Lacks (r : Reading) : SyntaxError → Prop where
  | declaration {keyword target : Token} {name : String}
      (hmode : r.mode = .expression (.declaration keyword name target) []) :
      Lacks r (.atToken (.noValue true) target)
  | print {keyword : Token}
      (hmode : r.mode = .printing keyword ∨ r.mode = .expression (.print keyword) []) :
      Lacks r (.atToken (.noValue false) keyword)

theorem lacks_of_settle {r : Reading} {e : SyntaxError} (h : r.settle = .error e) : r.Lacks e := by
  unfold settle at h
  split at h
  · next hmode =>
    cases h
    exact .print (Or.inl hmode)
  · next hmode =>
    cases h
    exact .declaration hmode
  · next hmode =>
    cases h
    exact .print (Or.inr hmode)
  all_goals cases h

theorem noValue_of_lacks {r : Reading} {e : SyntaxError} (h : r.Lacks e) :
    ∃ declared u, e = .atToken (.noValue declared) u := by
  cases h with
  | declaration => exact ⟨true, _, rfl⟩
  | print => exact ⟨false, _, rfl⟩

theorem blocks_of_settle {r q : Reading} (h : r.settle = .ok q) : q.blocks = r.blocks := by
  unfold settle at h
  split at h
  case h_1 | h_2 | h_3 => cases h
  all_goals cases h; rfl

/-- Why a reading does not take a token in. A closing brace is a stray token
only where no block is open. -/
inductive Refuses (r : Reading) (t : Token) : SyntaxError → Prop where
  | noValue (declared : Bool) (u : Token) : Refuses r t (.atToken (.noValue declared) u)
  | wrongToken (expected : Expected) :
      Refuses r t (.atToken (.wrongToken t.lexeme.value expected) t)
  | notComparison (operator : String) (h : t.lexeme = .operator operator) :
      Refuses r t (.atToken (.notComparison operator) t)
  | strayToken (h : t.lexeme = .brace .closing → r.blocks = []) :
      Refuses r t (.atToken (.strayToken t.lexeme.value) t)

/-- Why a token does not fit where a reading stands. A closing brace is a stray
token only where no block is open. -/
inductive Rejects (r : Reading) (t : Token) : SyntaxError → Prop where
  | wrongToken (expected : Expected) :
      Rejects r t (.atToken (.wrongToken t.lexeme.value expected) t)
  | notComparison (operator : String) (h : t.lexeme = .operator operator) :
      Rejects r t (.atToken (.notComparison operator) t)
  | strayToken (h : t.lexeme = .brace .closing → r.blocks = []) :
      Rejects r t (.atToken (.strayToken t.lexeme.value) t)

theorem rejects_of_begin {r : Reading} {t : Token} {e : SyntaxError} (h : r.begin t = .error e) :
    r.Rejects t e := by
  unfold begin at h
  split at h
  · cases h
  · cases h
  · cases h
  · cases h
  · cases h
  · cases h
    exact .wrongToken _
  · next hclosing _ =>
    cases h
    refine .strayToken fun ht => ?_
    cases hblocks : r.blocks with
    | nil => rfl
    | cons block outer => exact absurd hblocks (hclosing block outer ht)

theorem operand_error {t : Token} {e : SyntaxError} (h : operand t = .error e) :
    e = .atToken (.wrongToken t.lexeme.value .operand) t := by
  unfold operand at h
  split at h
  · cases h
  · cases h
  · cases h
    rfl

theorem rejects_of_take {r : Reading} {t : Token} {e : SyntaxError} (h : r.take t = .error e) :
    r.Rejects t e := by
  unfold take at h
  split at h
  · exact rejects_of_begin h
  · split at h
    · cases h
    · cases h
      exact .wrongToken _
  · split at h
    · cases h
    · cases h
      exact .wrongToken _
  · split at h <;> cases h
  · cases h
  · cases hop : operand t with
    | ok left => rw [hop] at h; cases h
    | error e' =>
      rw [hop] at h
      cases h
      rw [operand_error hop]
      exact .wrongToken _
  · split at h
    · next operator ht =>
      split at h
      · cases h
      · cases h
        exact .notComparison operator ht
    · cases h
      exact .wrongToken _
  · cases hop : operand t with
    | ok right => rw [hop] at h; cases h
    | error e' =>
      rw [hop] at h
      cases h
      rw [operand_error hop]
      exact .wrongToken _
  · split at h
    · cases h
    · cases h
      exact .wrongToken _
  · cases h

/-- Where a token is refused, either the statement before it cannot end there, or
the token does not fit after all that may end before it. -/
theorem step_error {r : Reading} {t : Token} {e : SyntaxError} (h : r.step t = .error e) :
    (r.continues t = false ∧ r.Lacks e) ∨
      ∃ q, (q = r ∨ r.settle = .ok q) ∧ q.Rejects t e := by
  have take_last {q : Reading} (h : (do let q ← q.take t; return { q with last := some t } :
      Except SyntaxError Reading) = .error e) : q.Rejects t e := by
    cases htake : q.take t with
    | ok q' => rw [htake] at h; cases h
    | error e' =>
      rw [htake] at h
      cases h
      exact rejects_of_take htake
  unfold step at h
  split at h
  · exact Or.inr ⟨r, Or.inl rfl, take_last h⟩
  · next hcontinues =>
    cases hsettle : r.settle with
    | error e' =>
      rw [hsettle] at h
      cases h
      exact Or.inl ⟨Bool.eq_false_iff.mpr hcontinues, lacks_of_settle hsettle⟩
    | ok q =>
      rw [hsettle] at h
      exact Or.inr ⟨q, Or.inr rfl, take_last h⟩

theorem refuses_of_step {r : Reading} {t : Token} {e : SyntaxError} (h : r.step t = .error e) :
    r.Refuses t e := by
  rcases step_error h with ⟨_, hlacks⟩ | ⟨q, hq, hrejects⟩
  · obtain ⟨declared, u, rfl⟩ := noValue_of_lacks hlacks
    exact .noValue declared u
  · -- settling leaves the blocks open, so that the reason is also one for `r`
    have hblocks : q.blocks = r.blocks := by
      rcases hq with rfl | hsettle
      · rfl
      · exact blocks_of_settle hsettle
    cases hrejects with
    | wrongToken expected => exact .wrongToken expected
    | notComparison operator ht => exact .notComparison operator ht
    | strayToken ht => exact .strayToken fun hclosing => hblocks ▸ ht hclosing

/-- A run that fails does so at one of its tokens, and reads those before it. -/
theorem run_error {r : Reading} {ts : List Token} {e : SyntaxError} (h : r.run ts = .error e) :
    ∃ us t vs q, ts = us ++ t :: vs ∧ r.run us = .ok q ∧ q.step t = .error e := by
  induction ts generalizing r with
  | nil => cases h
  | cons t ts ih =>
    cases hstep : r.step t with
    | error e' =>
      rw [run_cons, hstep] at h
      cases h
      exact ⟨[], t, ts, r, rfl, rfl, hstep⟩
    | ok r' =>
      rw [run_cons_ok hstep] at h
      obtain ⟨us, u, vs, q, rfl, hrun, hu⟩ := ih h
      exact ⟨t :: us, u, vs, q, rfl, by rw [run_cons_ok hstep, hrun], hu⟩

/-- Why a reading may not end here. -/
inductive RefusesEnd (r : Reading) : SyntaxError → Prop where
  | endOfInput (wanted : Expected) : RefusesEnd r (.atLast (.endOfInput wanted) r.last)
  | noValue (declared : Bool) (u : Token) : RefusesEnd r (.atToken (.noValue declared) u)
  | openBlock (block : OpenBlock) (outer : List OpenBlock) (h : r.blocks = block :: outer) :
      RefusesEnd r (.atToken .openBlock block.opener)

/-- Where the tokens end too early, something is asked for, an expression is
missing, or a block is open. -/
theorem finish_error {r : Reading} {e : SyntaxError} (h : r.finish = .error e) :
    (∃ wanted, e = .atLast (.endOfInput wanted) r.last) ∨ r.Lacks e ∨
      ∃ block outer, r.blocks = block :: outer ∧ e = .atToken .openBlock block.opener := by
  unfold finish at h
  split at h
  · next wanted _ =>
    cases h
    exact Or.inl ⟨wanted, rfl⟩
  · cases hsettle : r.settle with
    | error e' =>
      rw [hsettle] at h
      cases h
      exact Or.inr (Or.inl (lacks_of_settle hsettle))
    | ok q =>
      rw [hsettle] at h
      dsimp only [bind, Except.bind] at h
      split at h
      · cases h
      · next block outer hblocks =>
        cases h
        exact Or.inr (Or.inr ⟨block, outer, (blocks_of_settle hsettle).symm.trans hblocks, rfl⟩)

theorem refusesEnd_of_finish {r : Reading} {e : SyntaxError} (h : r.finish = .error e) :
    r.RefusesEnd e := by
  rcases finish_error h with ⟨wanted, rfl⟩ | hlacks | ⟨block, outer, hblocks, rfl⟩
  · exact .endOfInput wanted
  · obtain ⟨declared, u, rfl⟩ := noValue_of_lacks hlacks
    exact .noValue declared u
  · exact .openBlock block outer hblocks

end Crafter.Reading

namespace Crafter.Program

open Reading

/-- The parser fails at a token, after a run over those before it, or at the
end of the tokens. -/
theorem ofTokens_error {tokens : List Token} {e : SyntaxError} (h : ofTokens tokens = .error e) :
    (∃ us t vs q, tokens = us ++ t :: vs ∧ start.run us = .ok q ∧ q.Refuses t e) ∨
      ∃ q, start.run tokens = .ok q ∧ q.RefusesEnd e := by
  change (start.run tokens >>= finish) = _ at h
  cases hrun : start.run tokens with
  | error e' =>
    rw [hrun] at h
    cases h
    obtain ⟨us, t, vs, q, htokens, hus, hstep⟩ := run_error hrun
    exact Or.inl ⟨us, t, vs, q, htokens, hus, refuses_of_step hstep⟩
  | ok q =>
    rw [hrun] at h
    exact Or.inr ⟨q, rfl, refusesEnd_of_finish h⟩

end Crafter.Program
