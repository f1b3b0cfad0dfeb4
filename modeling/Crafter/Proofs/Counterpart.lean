import Crafter.Proofs.Findings
import Crafter.Proofs.Reported
import Mathlib.Data.List.Forall2
import Mathlib.Logic.Function.Basic

/-! Two sources with the same tokens up to names and places. From the tokens that
stand in the same positions of the two lists a translation can be read off, and
the reports on the two sources are translations of each other. -/
namespace Crafter

/-- The second token is the first one under its new name, wherever it stands. -/
structure Token.Renders (ρ : Renaming) (t t' : Token) : Prop where
  lexeme : t'.lexeme = t.lexeme.rename ρ.text
  text : t'.span.text = if t.lexeme.inExpression then ρ.text t.span.text else t.span.text
  file : t'.span.file = t.span.file

theorem Token.Renders.eq_translate {τ : Translation} {t t' : Token} (h : t.Renders τ.names t')
    (hfile : τ.file = id) (hstart : t'.span.start = τ.start t.span.start) (hstop : t'.span.stop = τ.stop t.span) :
    t' = t.translate τ := by
  obtain ⟨lexeme', file', start', stop', text'⟩ := t'
  obtain ⟨hlexeme, htext, hsame⟩ := h
  cases hlexeme
  cases htext
  cases hsame
  cases hstart
  cases hstop
  unfold Token.translate
  rw [hfile]
  rfl

/-- As tokens start at different places, the place of a token tells which token
it becomes. -/
theorem Translation.exists_of_renders {ρ : Renaming} {tokens tokens' : List Token}
    (h : List.Forall₂ (Token.Renders ρ) tokens tokens')
    (hplaces : (tokens.map (·.span.start)).Nodup) :
    ∃ τ : Translation, τ.names = ρ ∧ τ.file = id ∧ tokens' = tokens.map (Token.translate τ) ∧
      ∀ p, (∀ t ∈ tokens, t.span.start ≠ p) → τ.start p = p := by
  have hlength := h.length_eq
  let key (i : Fin tokens.length) : Position := (tokens.get i).span.start
  let partner (i : Fin tokens.length) : Token := tokens'.get (i.cast hlength)
  have hkey : Function.Injective key := by
    intro i j hij
    apply List.nodup_iff_injective_get.mp hplaces.of_map
    exact List.inj_on_of_nodup_map hplaces (tokens.get_mem i) (tokens.get_mem j) hij
  let start := Function.extend key (fun i => (partner i).span.start) id
  let stop := Function.extend key (fun i => (partner i).span.stop) id
  have hstart (i : Fin tokens.length) : start (key i) = (partner i).span.start :=
    hkey.extend_apply _ _ i
  have hstop (i : Fin tokens.length) : stop (key i) = (partner i).span.stop :=
    hkey.extend_apply _ _ i
  have helsewhere {p : Position} (hp : ¬ ∃ i, key i = p) : start p = p :=
    Function.extend_apply' _ id p hp
  refine ⟨⟨ρ, start, fun s => stop s.start, id⟩, rfl, rfl, ?_, ?_⟩
  · refine List.ext_get (by rw [List.length_map, hlength]) fun n hn' hn => ?_
    have hn : n < tokens.length := by rwa [List.length_map] at hn
    rw [List.get_eq_getElem, List.get_eq_getElem, List.getElem_map]
    exact Token.Renders.eq_translate (h.get hn hn') rfl (hstart ⟨n, hn⟩).symm (hstop ⟨n, hn⟩).symm
  · intro p hp
    apply helsewhere
    rintro ⟨i, hi⟩
    exact hp _ (tokens.get_mem i) hi

/-- Tokens of two sources that correspond in some way render each other if what
they say and their texts do. -/
theorem Source.renders_of_scan {ρ : Renaming} {R : Token → Token → Prop}
    {file source source' : String} {tokens tokens' : List Token}
    (hscan : scan file source = .ok tokens) (hscan' : scan file source' = .ok tokens')
    (h : List.Forall₂ R tokens tokens')
    (hrendered : ∀ t ∈ tokens, ∀ t', t.WellSpelt → t'.WellSpelt → R t t' →
      t'.lexeme = t.lexeme.rename ρ.text ∧ t'.span.text =
        if t.lexeme.inExpression then ρ.text t.span.text else t.span.text) :
    List.Forall₂ (Token.Renders ρ) tokens tokens' := by
  obtain ⟨hlength, hpairs⟩ := List.forall₂_iff_zip.mp h
  refine List.forall₂_iff_zip.mpr ⟨hlength, fun {t t'} hmem => ?_⟩
  obtain ⟨ht, ht'⟩ := List.of_mem_zip hmem
  have hspelt := wellSpelt_of_scan file hscan t ht
  have hspelt' := wellSpelt_of_scan file hscan' t' ht'
  obtain ⟨hlexeme, htext⟩ := hrendered t ht t' hspelt hspelt' (hpairs hmem)
  have hfile : t'.span.file = t.span.file := by
    rw [file_of_scan file hscan t ht, file_of_scan file hscan' t' ht']
  exact ⟨hlexeme, htext, hfile⟩

/-- The second message says the same in the new names, of the new place. -/
inductive Diagnostic.Mirrors (τ : Translation) : Diagnostic → Diagnostic → Prop where
  | fault (cause : Fault) (loc : Position) :
      Mirrors τ (.pointing .error .runtime cause.message loc)
        (.pointing .error .runtime (cause.rename τ.names.text).message (τ.start loc))
  | notice (d : Diagnostic) : Mirrors τ d (d.translate τ)

/-- The second outcome is the first one in the new names, with the new places. -/
structure Outcome.Mirrors (τ : Translation) (o o' : Outcome) : Prop where
  status : o'.status = o.status
  lines : o'.lines = o.lines
  messages : List.Forall₂ (Diagnostic.Mirrors τ) (o.fault.toList ++ o.notices)
    (o'.fault.toList ++ o'.notices)
  breakpoint : o'.breakpoint = o.breakpoint.map τ.start
  trace : o'.trace = o.trace.map (Frame.translate τ)
  limitReached : o'.limitReached = o.limitReached
  environment : o'.environment = o.environment.rename τ.names.text

theorem Outcome.mirrors_ofStep (τ : Translation) (step : Step) :
    (Outcome.ofStep step.1 step.2).Mirrors τ
      (.ofStep (step.translate τ .empty).1 (step.translate τ .empty).2) := by
  obtain ⟨halt, m⟩ := step
  have hnotices : List.Forall₂ (Diagnostic.Mirrors τ) m.notices.toList
      (m.translate τ .empty).notices.toList := by
    change List.Forall₂ _ _ (#[] ++ m.notices.map (Diagnostic.translate τ)).toList
    rw [Array.empty_append, Array.toList_map, List.forall₂_map_right_iff, List.forall₂_same]
    exact fun d _ => .notice d
  cases halt with
  | none => exact ⟨rfl, rfl, hnotices, rfl, rfl, rfl, rfl⟩
  | some halt =>
    cases halt with
    | fault cause loc trace =>
      exact ⟨rfl, rfl, .cons (.fault cause loc) hnotices, rfl, rfl, rfl, rfl⟩
    | pause loc trace => exact ⟨rfl, rfl, hnotices, rfl, rfl, rfl, rfl⟩
    | unsupported name => exact ⟨rfl, rfl, hnotices, rfl, rfl, rfl, rfl⟩

theorem Program.run_mirrors {τ : Translation} {tokens : List Token} {p : Program}
    (h : ofTokens tokens = .ok p) {breakpoints : Breakpoints} (hb : τ.Respects breakpoints)
    (cap : Cap) : (p.run breakpoints cap).Mirrors τ (run (translate τ p) breakpoints cap) := by
  have hexec := exec_translate .empty (comparesOperands_of_ofTokens h) p
    (List.Subset.refl _) (.start breakpoints cap) hb
  rw [Machine.translate_start] at hexec
  unfold run
  rw [hexec]
  exact Outcome.mirrors_ofStep τ (exec p (.start breakpoints cap))

/-- The second report is the first one, which warns of what lint has found, in the
new names and with the new places. -/
structure Report.Mirrors (τ : Translation) (found : List Lint.Finding) (r r' : Report) :
    Prop where
  status : r'.status = r.status
  output : r'.output = r.output
  partialOutput : r'.partialOutput = r.partialOutput
  limitReached : r'.limitReached = r.limitReached
  warnings : r.warnings = found.map (·.diagnostic)
  translated : r'.warnings = found.map fun f => (f.translate τ).diagnostic
  diagnostics : List.Forall₂ (Diagnostic.Mirrors τ) r.diagnostics r'.diagnostics
  breakpoint : r'.breakpoint = r.breakpoint.map τ.start
  trace : r'.trace = r.trace.map (Frame.translate τ)
  program : r'.program = r.program.map (Program.translate τ)

/-- What is the same of messages that mirror each other is the same in reports that
do. -/
theorem Report.Mirrors.map_diagnostics {τ : Translation} {found : List Lint.Finding}
    {r r' : Report} (h : r.Mirrors τ found r') {α : Type} {f : Diagnostic → α}
    (hf : ∀ d d', d.Mirrors τ d' → f d' = f d) : r'.diagnostics.map f = r.diagnostics.map f := by
  rw [← List.forall₂_eq_eq_eq, List.forall₂_map_left_iff, List.forall₂_map_right_iff]
  exact h.diagnostics.flip.imp fun d' d hd => hf d d' hd

theorem Report.mirrors_ofOutcome {τ : Translation} {tokens : List Token} {p : Program}
    (hparse : Program.ofTokens tokens = .ok p)
    (hplaces : ((tokens.map (Token.translate τ)).map (·.span.start)).Nodup) {o o' : Outcome}
    (h : o.Mirrors τ o') :
    (Report.ofOutcome tokens p o).Mirrors τ (Lint.findings tokens p)
      (.ofOutcome (tokens.map (Token.translate τ)) (Program.translate τ p) o') := by
  have hstarts : ∀ s ∈ Program.statements p, ∀ t ∈ tokens,
      τ.start t.span.start = τ.start s.loc → t.span.start = s.loc := by
    intro s hs t ht heq
    obtain ⟨_, _, u, hu, _, hloc⟩ := Program.opensAt_of_mem hparse hs
    rw [List.map_map] at hplaces
    rw [← hloc] at heq ⊢
    exact congrArg (·.span.start) (List.inj_on_of_nodup_map hplaces ht hu heq)
  have hfindings := Lint.findings_translate τ (Program.comparesOperands_of_ofTokens hparse) hstarts
  have houtput : o'.output = o.output := by
    unfold Outcome.output
    rw [h.status, h.lines]
  have hpartial : o'.partialOutput = o.partialOutput := by
    unfold Outcome.partialOutput
    rw [h.status, h.lines]
  refine ⟨h.status, houtput, hpartial, h.limitReached, Lint.warnings_eq tokens p, ?_, h.messages,
    h.breakpoint, h.trace, rfl⟩
  refine (Lint.warnings_eq _ _).trans ?_
  rw [hfindings, List.map_map]
  rfl

theorem Source.nodup_starts_of_scan {file source : String} {tokens : List Token}
    (h : scan file source = .ok tokens) : (tokens.map (·.span.start)).Nodup :=
  Position.nodup_of_pairwise_before (List.pairwise_map.mpr (pairwise_of_scan file h))

namespace Request

/-- Both programs run to their ends, or halt, and what is reported of the second
one is what is reported of the first. -/
theorem report_mirrors {τ : Translation} {file source source' : String} {tokens : List Token}
    {p : Program} (hscan : Source.scan file source = .ok tokens)
    (hscan' : Source.scan file source' = .ok (tokens.map (Token.translate τ)))
    (hparse : Program.ofTokens tokens = .ok p) {breakpoints : Breakpoints}
    (hb : τ.Respects breakpoints) {cap : Int} (hcap : 1 ≤ cap) :
    ∃ o o' r r', p.run? breakpoints cap = .ok o ∧
      Program.run? (Program.translate τ p) breakpoints cap = .ok o' ∧ o.Mirrors τ o' ∧
      report ⟨source, file, breakpoints, cap⟩ = .ok r ∧
      report ⟨source', file, breakpoints, cap⟩ = .ok r' ∧
      r.Mirrors τ (Lint.findings tokens p) r' := by
  have hparse' := Program.ofTokens_translate τ hparse
  obtain ⟨c, hc, hrun⟩ := Program.run?_eq_ok (Program.genuine_of_ofTokens hparse) breakpoints hcap
  have hrun' := Program.run?_count (Program.genuine_of_ofTokens hparse') breakpoints c
  rw [hc] at hrun'
  have houtcome := Program.run_mirrors hparse hb c
  refine ⟨_, _, _, _, hrun, hrun', houtcome, report_of_run hscan hparse hrun,
    report_of_run hscan' hparse' hrun', ?_⟩
  exact Report.mirrors_ofOutcome hparse (Source.nodup_starts_of_scan hscan') houtcome

end Request

end Crafter
