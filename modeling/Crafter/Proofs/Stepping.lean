import Crafter.Program.Parse
import Crafter.Proofs.Grammar

/-! What one token does to a reading, and what many tokens do. -/
namespace Crafter.Reading

open Grammar

/-- Many tokens further. -/
def run (r : Reading) (ts : List Token) : Except SyntaxError Reading := ts.foldlM step r

theorem run_cons (r : Reading) (t : Token) (ts : List Token) :
    r.run (t :: ts) = r.step t >>= (·.run ts) := rfl

theorem run_cons_ok {r q : Reading} {t : Token} (h : r.step t = .ok q) (ts : List Token) :
    r.run (t :: ts) = q.run ts := by
  rw [run_cons, h]
  rfl

theorem run_cons_eq_ok {r q : Reading} {t : Token} {ts : List Token}
    (h : r.run (t :: ts) = .ok q) : ∃ r', r.step t = .ok r' ∧ r'.run ts = .ok q := by
  cases hstep : r.step t with
  | error e => rw [run_cons, hstep] at h; cases h
  | ok r' => exact ⟨r', rfl, by rwa [run_cons_ok hstep] at h⟩

theorem run_append (r : Reading) (ts us : List Token) :
    r.run (ts ++ us) = r.run ts >>= (·.run us) := List.foldlM_append

theorem run_append_ok {r q : Reading} {ts : List Token} (h : r.run ts = .ok q) (us : List Token) :
    r.run (ts ++ us) = q.run us := by
  rw [run_append, h]
  rfl

theorem continues_between {r : Reading} (hmode : r.mode = .between) (t : Token) :
    r.continues t = true := by
  unfold continues
  rw [hmode]

theorem continues_printing {r : Reading} {keyword : Token} (hmode : r.mode = .printing keyword)
    (t : Token) : r.continues t = true ↔
      (∃ contents, t.lexeme = .string contents) ∨ t.lexeme.inExpression = true := by
  unfold continues
  rw [hmode]
  cases t.lexeme <;> simp

theorem continues_expression {r : Reading} {owner : ExpressionOwner} {parts : List String}
    (hmode : r.mode = .expression owner parts) (t : Token) :
    r.continues t = t.lexeme.inExpression := by
  unfold continues
  rw [hmode]

theorem continues_decided {r : Reading} {test : Condition} {body : List Statement}
    {loc : Position} (hmode : r.mode = .decided test body loc) (t : Token) :
    r.continues t = true ↔ t.lexeme = .keyword .otherwise := by
  unfold continues
  rw [hmode]
  cases t.lexeme with
  | keyword word => cases word <;> simp
  | _ => simp

theorem expected_of_not_continues {r : Reading} {t : Token} (hc : r.continues t = false) :
    expected r.mode = none := by
  obtain ⟨mode, blocks, complete, last⟩ := r
  cases mode with
  | printing | expression | decided => rfl
  | _ => cases hc

theorem settle_between {r : Reading} (hmode : r.mode = .between) : r.settle = .ok r := by
  unfold settle
  rw [hmode]

theorem settle_declaration {r : Reading} {keyword target : Token} {name : String}
    {parts : List String} (hmode : r.mode = .expression (.declaration keyword name target) parts)
    (hparts : parts ≠ []) :
    r.settle = .ok (r.add (.declaration name (joinParts parts) keyword.span.start)) := by
  cases parts with
  | nil => exact absurd rfl hparts
  | cons part parts =>
    unfold settle
    rw [hmode]

theorem settle_print {r : Reading} {keyword : Token} {parts : List String}
    (hmode : r.mode = .expression (.print keyword) parts) (hparts : parts ≠ []) :
    r.settle = .ok (r.add (.printValue (joinParts parts) keyword.span.start)) := by
  cases parts with
  | nil => exact absurd rfl hparts
  | cons part parts =>
    unfold settle
    rw [hmode]

/-- A statement that may end here settles to a place between two statements. -/
theorem mode_of_settle {r q : Reading} (h : r.settle = .ok q) (he : expected r.mode = none) :
    q.mode = .between := by
  obtain ⟨mode, blocks, complete, last⟩ := r
  cases mode with
  | between => cases h; rfl
  | printing => cases h
  | expression owner parts => cases owner <;> cases parts <;> cases h <;> rfl
  | decided => cases h; rfl
  | _ => cases he

theorem take_operand {t : Token} (ht : IsOperand t) : operand t = .ok t := by
  unfold operand
  rcases ht with ⟨name, ht⟩ | ⟨value, ht⟩ <;> rw [ht]

theorem operand_eq_ok {t u : Token} (h : operand t = .ok u) : u = t ∧ IsOperand t := by
  unfold operand at h
  split at h
  · next name ht =>
    cases h
    exact ⟨rfl, Or.inl ⟨name, ht⟩⟩
  · next value ht =>
    cases h
    exact ⟨rfl, Or.inr ⟨value, ht⟩⟩
  · cases h

theorem isSome_ofSpelling?_iff (operator : String) :
    (Comparison.ofSpelling? operator).isSome = true ↔ operator ∈ comparisons := by
  constructor
  · intro h
    obtain ⟨comparison, hcomparison⟩ := Option.isSome_iff_exists.mp h
    have hspelling := List.find?_some hcomparison
    rw [← eq_of_beq hspelling]
    cases comparison <;> decide
  · intro h
    simp only [comparisons, List.mem_cons, List.not_mem_nil, or_false] at h
    rcases h with rfl | rfl | rfl | rfl | rfl | rfl <;> decide

theorem finish_eq_ok {r : Reading} {p : Program} (h : r.finish = .ok p) :
    ∃ q, r.settle = .ok q ∧ q.mode = .between ∧ q.blocks = [] ∧ q.complete.reverse = p := by
  unfold finish at h
  cases he : expected r.mode with
  | some wanted => rw [he] at h; cases h
  | none =>
    rw [he] at h
    cases hs : r.settle with
    | error e => rw [hs] at h; cases h
    | ok q =>
      rw [hs] at h
      dsimp only [bind, Except.bind] at h
      split at h
      · next hblocks =>
        cases h
        exact ⟨q, rfl, mode_of_settle hs he, hblocks, rfl⟩
      · cases h

theorem joinParts_map_reverse (run : Run) :
    joinParts (run.tokens.map (·.span.text)).reverse = run.text := by
  rw [joinParts, List.reverse_reverse, Run.text]

end Crafter.Reading
