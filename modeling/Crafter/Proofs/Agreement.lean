import Crafter.Demonstration
import Crafter.Proofs.Balance
import Crafter.Proofs.Genuine
import Crafter.Proofs.Scanning

/-! The check of the braces and the parser agree: what the parser accepts passes
the check, and the two report unbalanced braces alike. -/
namespace Crafter

open Source

theorem head?_toList_append {a : String} {c : Char} (h : a.toList.head? = some c) (b : String) :
    (a ++ b).toList.head? = some c := by
  rw [String.toList_append, List.head?_append, h]
  rfl

/-- The message for a block left open is the message for nothing else. -/
theorem message_eq_openBlock {fault : SyntaxFault}
    (h : fault.message = "Missing closing brace '\x7d'") : fault = .openBlock := by
  have other {text : String} {c : Char} (hc : text.toList.head? = some c) (hne : c ≠ 'M') :
      text ≠ "Missing closing brace '\x7d'" := by
    rintro rfl
    exact hne (Option.some.inj hc.symm)
  cases fault with
  | openBlock => rfl
  | noValue declared => cases declared <;> exact absurd h (by decide)
  | openString | strayClosing => exact absurd h (by decide)
  | strayCharacter c =>
    have hc : (SyntaxFault.strayCharacter c).message.toList.head? = some 'U' :=
      head?_toList_append (head?_toList_append (by decide) _) _
    exact absurd h (other hc (by decide))
  | strayToken value =>
    have hc : (SyntaxFault.strayToken value).message.toList.head? = some 'U' :=
      head?_toList_append (head?_toList_append (by decide) _) _
    exact absurd h (other hc (by decide))
  | wrongToken value expected =>
    have hc : (SyntaxFault.wrongToken value expected).message.toList.head? = some 'U' :=
      head?_toList_append (head?_toList_append (head?_toList_append (by decide) _) _) _
    exact absurd h (other hc (by decide))
  | endOfInput expected =>
    have hc : (SyntaxFault.endOfInput expected).message.toList.head? = some 'U' :=
      head?_toList_append (by decide) _
    exact absurd h (other hc (by decide))
  | notComparison operator =>
    have hc : (SyntaxFault.notComparison operator).message.toList.head? = some 'U' :=
      head?_toList_append (head?_toList_append (by decide) _) _
    exact absurd h (other hc (by decide))

/-- Tokens that start at the same place of a text are the same. -/
theorem eq_of_start_eq {us vs : List Token} {t u : Token}
    (h : (us ++ u :: vs).Pairwise fun a b => a.span.start.Before b.span.start)
    (ht : t ∈ us ++ u :: vs) (he : t.span.start = u.span.start) : t = u := by
  obtain ⟨_, hu, hbefore⟩ := List.pairwise_append.mp h
  have hafter := (List.pairwise_cons.mp hu).1
  rcases List.mem_append.mp ht with ht | ht
  · have hlt := hbefore t ht u List.mem_cons_self
    rw [he] at hlt
    exact absurd hlt (Position.before_irrefl _)
  rcases List.mem_cons.mp ht with rfl | ht
  · rfl
  · have hlt := hafter t ht
    rw [he] at hlt
    exact absurd hlt (Position.before_irrefl _)

namespace Program

open Reading

theorem checkBalance_of_ofTokens {tokens : List Token} {p : Program}
    (h : ofTokens tokens = .ok p) : checkBalance tokens = .ok () := by
  cases hrun : start.run tokens with
  | error e =>
    change (start.run tokens >>= finish) = _ at h
    rw [hrun] at h
    cases h
  | ok r =>
    rw [ofTokens_eq_finish hrun] at h
    obtain ⟨q, hsettle, _, hblocks, _⟩ := finish_eq_ok h
    have hopeners : r.openers = [] := by
      rw [openers, ← blocks_of_settle hsettle, hblocks, List.map_nil]
    have hbalance := balance_of_run hrun
    rw [hopeners] at hbalance
    change tokens.foldlM balanceStep [] = _ at hbalance
    unfold checkBalance
    rw [hbalance]

theorem checkBalance_of_openBlock {tokens : List Token} {e : SyntaxError}
    (h : ofTokens tokens = .error e) (hfault : e.fault = .openBlock) :
    checkBalance tokens = .error e := by
  rcases ofTokens_error h with ⟨us, t, vs, q, _, _, hrefuses⟩ | ⟨q, hrun, hend⟩
  · cases hrefuses <;> cases hfault
  · cases hend with
    | endOfInput wanted => cases hlast : q.last <;> rw [hlast] at hfault <;> cases hfault
    | noValue declared u => cases hfault
    | openBlock block outer hblocks =>
      have hbalance := balance_of_run hrun
      rw [openers, openers, hblocks] at hbalance
      unfold checkBalance
      change tokens.foldlM balanceStep [] = _ at hbalance
      rw [hbalance]
      rfl

theorem checkBalance_of_strayToken {tokens : List Token} {t : Token}
    (hplaces : tokens.Pairwise fun a b => a.span.start.Before b.span.start)
    (ht : t ∈ tokens) (hclosing : t.lexeme = .brace .closing) {value : String}
    (h : ofTokens tokens = .error (.atToken (.strayToken value) t)) :
    checkBalance tokens = .error (.atToken .strayClosing t) := by
  rcases ofTokens_error h with ⟨us, u, vs, q, rfl, hrun, hrefuses⟩ | ⟨q, _, hend⟩
  · generalize he : SyntaxError.atToken (.strayToken value) t = e at hrefuses
    cases hrefuses with
    | strayToken hblocks =>
      have hstart : t.span.start = u.span.start := congrArg SyntaxError.start he
      have htu := eq_of_start_eq hplaces ht hstart
      subst htu
      have hbalance := checkBalance_of_run hrun (t :: vs)
      rw [openers, hblocks hclosing, List.map_nil, List.foldlM_cons,
        balanceStep_of_stray hclosing] at hbalance
      unfold checkBalance
      rw [hbalance]
      rfl
    | _ => cases congrArg SyntaxError.fault he
  · generalize he : SyntaxError.atToken (.strayToken value) t = e at hend
    cases hend with
    | endOfInput wanted =>
      cases hlast : q.last <;> rw [hlast] at he <;> cases congrArg SyntaxError.fault he
    | _ => cases congrArg SyntaxError.fault he

/-- How the check of the braces and the parser judge the same tokens. -/
structure BracesAgree (tokens : List Token) : Prop where
  passes : ∀ p, ofTokens tokens = .ok p → checkBalance tokens = .ok ()
  missing : ∀ e, ofTokens tokens = .error e →
    e.diagnostic.message = "Missing closing brace '\x7d'" → checkBalance tokens = .error e
  unmatched : ∀ t ∈ tokens, t.lexeme = .brace .closing →
    ofTokens tokens = .error (.atToken (.strayToken "\x7d") t) →
    checkBalance tokens = .error (.atToken .strayClosing t)

theorem bracesAgree_of_scan {file source : String} {tokens : List Token}
    (h : scan file source = .ok tokens) : BracesAgree tokens where
  passes _ hp := checkBalance_of_ofTokens hp
  missing _ he hmessage := checkBalance_of_openBlock he (message_eq_openBlock hmessage)
  unmatched _ ht hclosing he :=
    checkBalance_of_strayToken (pairwise_of_scan file h) ht hclosing he

theorem ofBalancedTokens_eq_ok_iff (tokens : List Token) (p : Program) :
    ofBalancedTokens tokens = .ok p ↔ ofTokens tokens = .ok p := by
  unfold ofBalancedTokens
  constructor
  · intro h
    cases hcheck : checkBalance tokens with
    | error e => rw [hcheck] at h; cases h
    | ok u =>
      rw [hcheck] at h
      exact h
  · intro h
    rw [checkBalance_of_ofTokens h]
    exact h

theorem ofSource_eq_ok_iff (file source : String) (tokens : List Token) (p : Program) :
    ofSource file source = .ok (tokens, p) ↔
      scan file source = .ok tokens ∧ ofTokens tokens = .ok p := by
  rw [← ofBalancedTokens_eq_ok_iff]
  unfold ofSource ofTokensOf
  cases hscan : scan file source with
  | error failure => exact ⟨nofun, fun h => nomatch h.1⟩
  | ok ts =>
    dsimp only [bind, Except.bind]
    cases hp : ofBalancedTokens ts with
    | error e =>
      constructor
      · exact nofun
      · rintro ⟨hts, hok⟩
        cases hts
        cases hp.symm.trans hok
    | ok q =>
      constructor
      · intro h
        cases h
        exact ⟨rfl, hp⟩
      · rintro ⟨hts, hok⟩
        cases hts
        cases hp.symm.trans hok
        rfl

/-- The tokens and the program of a source; nothing at all if it is no program. -/
def ofSourceD (file source : String) : List Token × Program :=
  match ofSource file source with
  | .ok read => read
  | .error _ => ([], [])

theorem ofSource_eq_of_isOk {file source : String} (h : (ofSource file source).isOk = true) :
    ofSource file source = .ok (ofSourceD file source) := by
  unfold ofSourceD
  cases hsource : ofSource file source with
  | ok read => rfl
  | error failure =>
    rw [hsource] at h
    cases h

end Program

namespace Request

/-- The report on a text that has no tokens tells of the error. -/
theorem report_of_malformed {file source : String} {e : SyntaxError}
    (hscan : Source.scan file source = .error (.malformed e)) (breakpoints : Breakpoints)
    (cap : Int) :
    report ⟨source, file, breakpoints, cap⟩ = .ok (.ofSyntaxError e [] .scanning) := by
  unfold report
  dsimp only
  rw [hscan]

/-- The report on a program tells how its run came out. -/
theorem report_of_run {file source : String} {tokens : List Token} {p : Program}
    (hscan : Source.scan file source = .ok tokens) (hparse : Program.ofTokens tokens = .ok p)
    {breakpoints : Breakpoints} {cap : Int} {o : Outcome}
    (hrun : p.run? breakpoints cap = .ok o) :
    report ⟨source, file, breakpoints, cap⟩ = .ok (.ofOutcome tokens p o) := by
  unfold report
  dsimp only
  rw [hscan]
  dsimp only
  rw [(Program.ofBalancedTokens_eq_ok_iff tokens p).mpr hparse]
  dsimp only
  rw [hrun]

/-- The report on a text that is no program tells of the error. -/
theorem report_of_error {file source : String} {tokens : List Token} {e : SyntaxError}
    (hscan : Source.scan file source = .ok tokens)
    (hparse : Program.ofBalancedTokens tokens = .error e) (breakpoints : Breakpoints) (cap : Int) :
    report ⟨source, file, breakpoints, cap⟩ = .ok (.ofSyntaxError e tokens .parsing) := by
  unfold report
  dsimp only
  rw [hscan]
  dsimp only
  rw [hparse]

/-- A report tells of an error in the text or of the outcome of a run. -/
theorem eq_of_report {file source : String} {breakpoints : Breakpoints} {cap : Int}
    {answer : Report} (h : report ⟨source, file, breakpoints, cap⟩ = .ok answer) :
    (∃ e, Source.scan file source = .error (.malformed e) ∧
      answer = .ofSyntaxError e [] .scanning) ∨
    ∃ tokens, Source.scan file source = .ok tokens ∧
      ((∃ e, Program.ofBalancedTokens tokens = .error e ∧
        answer = .ofSyntaxError e tokens .parsing) ∨
      ∃ p o, Program.ofTokens tokens = .ok p ∧ p.run? breakpoints cap = .ok o ∧
        answer = .ofOutcome tokens p o) := by
  unfold report at h
  dsimp only at h
  cases hscan : Source.scan file source with
  | error failure =>
    rw [hscan] at h
    cases failure with
    | malformed e =>
      cases h
      exact Or.inl ⟨e, rfl, rfl⟩
    | _ => cases h
  | ok tokens =>
    rw [hscan] at h
    dsimp only at h
    refine Or.inr ⟨tokens, rfl, ?_⟩
    cases hparse : Program.ofBalancedTokens tokens with
    | error e =>
      rw [hparse] at h
      cases h
      exact Or.inl ⟨e, rfl, rfl⟩
    | ok p =>
      rw [hparse] at h
      dsimp only at h
      cases hrun : p.run? breakpoints cap with
      | error failure =>
        rw [hrun] at h
        cases h
      | ok o =>
        rw [hrun] at h
        cases h
        exact Or.inr ⟨p, o, (Program.ofBalancedTokens_eq_ok_iff tokens p).mp hparse, hrun, rfl⟩

end Request

namespace Program

theorem report_eq_ok_iff (file source : String) (breakpoints : Breakpoints) {cap : Int}
    (hcap : 1 ≤ cap) (tokens : List Token) (p : Program) :
    (∃ report, Request.report ⟨source, file, breakpoints, cap⟩ = .ok report ∧
        report.tokens = tokens ∧ report.program = some p) ↔
      scan file source = .ok tokens ∧ ofTokens tokens = .ok p := by
  constructor
  · rintro ⟨report, h, rfl, hp⟩
    obtain ⟨e, _, rfl⟩ | ⟨ts, hscan, ⟨e, _, rfl⟩ | ⟨q, o, hq, _, rfl⟩⟩ := Request.eq_of_report h
    · cases hp
    · cases hp
    · cases hp
      exact ⟨hscan, hq⟩
  · rintro ⟨hscan, hp⟩
    obtain ⟨c, _, hrun⟩ := run?_eq_ok (genuine_of_ofTokens hp) breakpoints hcap
    exact ⟨_, Request.report_of_run hscan hp hrun, rfl, rfl⟩

theorem stageText_ast (source : String) : stageText source "ast" =
    scan unnamed source >>= fun tokens => match ofBalancedTokens tokens with
      | .error e => .error (.malformed e)
      | .ok p => .ok p.outline := rfl

theorem stageText_eq_ok_iff (source text : String) :
    stageText source "ast" = .ok text ↔ ∃ tokens p, scan unnamed source = .ok tokens ∧
      ofTokens tokens = .ok p ∧ p.outline = text := by
  simp only [← ofBalancedTokens_eq_ok_iff]
  rw [stageText_ast]
  constructor
  · intro h
    cases hscan : scan unnamed source with
    | error failure => rw [hscan] at h; cases h
    | ok tokens =>
      rw [hscan] at h
      dsimp only [bind, Except.bind] at h
      split at h
      · cases h
      · next p hp =>
        cases h
        exact ⟨tokens, p, rfl, hp, rfl⟩
  · rintro ⟨tokens, p, hscan, hp, rfl⟩
    rw [hscan]
    dsimp only [bind, Except.bind]
    rw [hp]

/-- The check of the braces and the parser agree on the tokens of a source.
Everything that makes the check before it parses therefore takes the sources
that the parser takes, with the trees that the parser gives them. -/
theorem checkBalance_agrees (file source : String) :
    (∀ tokens, scan file source = .ok tokens → BracesAgree tokens ∧
      (checkBalance tokens = .ok () → ∀ e, ofTokens tokens = .error e →
        e.diagnostic.message ≠ "Missing closing brace '\x7d'" ∧
          ∀ t ∈ tokens, t.lexeme = .brace .closing → e ≠ .atToken (.strayToken "\x7d") t)) ∧
    (∀ tokens p, ofSource file source = .ok (tokens, p) ↔
      scan file source = .ok tokens ∧ ofTokens tokens = .ok p) ∧
    (∀ breakpoints cap tokens p, 1 ≤ cap →
      ((∃ report, Request.report ⟨source, file, breakpoints, cap⟩ = .ok report ∧
          report.tokens = tokens ∧ report.program = some p) ↔
        scan file source = .ok tokens ∧ ofTokens tokens = .ok p)) ∧
    ∀ text, stageText source "ast" = .ok text ↔ ∃ tokens p, scan unnamed source = .ok tokens ∧
      ofTokens tokens = .ok p ∧ p.outline = text := by
  refine ⟨?_, ofSource_eq_ok_iff file source, ?_, stageText_eq_ok_iff source⟩
  · intro tokens htokens
    have hagree := bracesAgree_of_scan htokens
    refine ⟨hagree, ?_⟩
    intro hcheck e he
    constructor
    · intro hmessage
      cases hcheck.symm.trans (hagree.missing e he hmessage)
    · rintro t ht hclosing rfl
      cases hcheck.symm.trans (hagree.unmatched t ht hclosing he)
  · intro breakpoints cap tokens p hcap
    exact report_eq_ok_iff file source breakpoints hcap tokens p

end Program

end Crafter
