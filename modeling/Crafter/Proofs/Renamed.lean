import Crafter.Proofs.Counterpart
import Crafter.Proofs.Respelt

/-! Renaming variables changes nothing but names. A source in which every name is
replaced by another one, no two by the same, is a program again; it prints the
same, halts in the same lines, gets the same warnings about the new names, and
leaves the same values behind under the new names. -/
namespace Crafter

/-- On which lines a message stands and of what sort it is, whatever it says. -/
def Diagnostic.site (d : Diagnostic) : Int × Option Int × Severity × Concern :=
  (d.start.line, d.endLine, d.severity, d.concern)

/-- What is found, under another name. -/
def Lint.Finding.rename (r : String → String) (f : Finding) : Finding :=
  { f with subject := f.subject.rename r }

/-- The second report is the first one, which warns of what lint has found, line by
line and with new names in its warnings. -/
structure Report.Renamed (r : String → String) (found : List Lint.Finding) (a b : Report) :
    Prop where
  status : b.status = a.status
  output : b.output = a.output
  partialOutput : b.partialOutput = a.partialOutput
  limitReached : b.limitReached = a.limitReached
  diagnostics : b.diagnostics.map (·.site) = a.diagnostics.map (·.site)
  breakpoint : b.breakpoint.map (·.line) = a.breakpoint.map (·.line)
  trace : b.trace.map (fun f => (f.kind, f.loc.line)) = a.trace.map fun f => (f.kind, f.loc.line)
  warnings : a.warnings = found.map (·.diagnostic)
  renamed : b.warnings.map (fun d => (d.message, d.site)) =
    found.map fun f => ((f.rename r).diagnostic.message, f.diagnostic.site)

/-- Both programs run, and all that is told of the second one is what is told of
the first, in the new names. -/
def Request.AnsweredRenamed (r : String → String) (file source source' : String)
    (found : List Lint.Finding) (p p' : Program) (breakpoints : Breakpoints) (cap : Int) : Prop :=
  ∃ o o' a b, p.run? breakpoints cap = .ok o ∧ p'.run? breakpoints cap = .ok o' ∧
    o'.environment = o.environment.rename r ∧
    report ⟨source, file, breakpoints, cap⟩ = .ok a ∧
    report ⟨source', file, breakpoints, cap⟩ = .ok b ∧ a.Renamed r found b

theorem Lexeme.rename_congr {lexeme : Lexeme} {f g : String → String}
    (h : ∀ v ∈ lexeme.names, f v = g v) : lexeme.rename f = lexeme.rename g := by
  cases lexeme with
  | identifier name => exact congrArg Lexeme.identifier (h name List.mem_cons_self)
  | _ => rfl

section

variable {file source source' : String} {tokens tokens' : List Token} {r : String → String}
  {p : Program} {ρ : Renaming} {τ : Translation}

namespace Source

theorem mem_names {t : Token} (ht : t ∈ tokens) {v : String} (hv : v ∈ t.lexeme.names) :
    v ∈ names tokens :=
  List.mem_flatMap.mpr ⟨t, ht, hv⟩

theorem isName_of_mem_names (hscan : scan file source = .ok tokens) :
    ∀ v ∈ names tokens, IsName v := by
  intro v hv
  obtain ⟨t, ht, hv⟩ := List.mem_flatMap.mp hv
  have hspelt := wellSpelt_of_scan file hscan t ht
  obtain ⟨lexeme, span⟩ := t
  cases lexeme with
  | identifier name =>
    rw [List.mem_singleton.mp hv]
    exact isName_of_spelt hspelt
  | _ => cases hv

/-- A renaming that does with the names of a source what a map does. -/
theorem exists_renaming (hscan : scan file source = .ok tokens)
    (hnames : ∀ v ∈ names tokens, IsName (r v))
    (hinj : ∀ v ∈ names tokens, ∀ w ∈ names tokens, r v = r w → v = w) :
    ∃ ρ : Renaming, ∀ v ∈ names tokens, ρ.text v = r v := by
  have hold := isName_of_mem_names hscan
  obtain ⟨ρ, hρ⟩ := Renaming.exists_extension (names tokens).toFinset r
    (fun v hv => hold v (List.mem_toFinset.mp hv)) (fun v hv => hnames v (List.mem_toFinset.mp hv))
    (fun v hv w hw => hinj v (List.mem_toFinset.mp hv) w (List.mem_toFinset.mp hw))
  refine ⟨ρ, fun v hv => ?_⟩
  rw [ρ.text_of_alpha (hold v hv).alpha, hρ v (List.mem_toFinset.mpr hv)]

theorem text_of_name {t : Token} (h : t.WellSpelt) {v : String}
    (hlexeme : t.lexeme = .identifier v) : t.span.text = v := by
  unfold Token.WellSpelt at h
  rw [hlexeme] at h
  exact String.toList_inj.mp (chars_of_name h)

theorem renders_of_renamed (hscan : scan file source = .ok tokens)
    (hscan' : scan file source' = .ok tokens')
    (hρ : ∀ v ∈ names tokens, ρ.text v = r v)
    (h : List.Forall₂ (Token.Renamed r) tokens tokens') :
    List.Forall₂ (Token.Renders ρ) tokens tokens' := by
  refine renders_of_scan hscan hscan' h fun t ht t' hspelt hspelt' hrenamed => ?_
  have hlexeme : t'.lexeme = t.lexeme.rename ρ.text := by
    rw [hrenamed.lexeme]
    exact Lexeme.rename_congr fun v hv => (hρ v (mem_names ht hv)).symm
  refine ⟨hlexeme, ?_⟩
  by_cases hname : ∃ v, t.lexeme = .identifier v
  · -- the text of a name is the name
    obtain ⟨v, hv⟩ := hname
    rw [hv] at hlexeme
    rw [text_of_name hspelt' hlexeme, text_of_name hspelt hv, hv]
    rfl
  · -- no other token has a letter in it that could be renamed
    have hnone : t.lexeme.names = [] := by
      cases hother : t.lexeme with
      | identifier v => exact absurd ⟨v, hother⟩ hname
      | _ => rfl
    rw [hrenamed.text hnone]
    split
    · next hin =>
      apply String.toList_inj.mp
      rw [ρ.toList_text, ρ.reword_of_no_letter (Lint.no_letter_of_spelt hspelt hin hnone)]
    · rfl

/-- A name ends on the line that it starts on. -/
theorem stop_line_of_name (hscan : scan file source = .ok tokens) {t : Token} (ht : t ∈ tokens)
    {v : String} (hlexeme : t.lexeme = .identifier v) :
    t.span.stop.line = t.span.start.line := by
  obtain ⟨tiling, rfl⟩ := exists_tiling_of_scan file hscan
  obtain ⟨front, chars, _, _, hspelt, _, hstart, hstop⟩ :=
    exists_stretch ht (tiling.gap ++ tiling.rest)
  rw [hlexeme] at hspelt
  have hfeeds : chars.dropLast.count '\n' = 0 :=
    List.count_eq_zero.mpr fun hmem => no_feed_of_name hspelt (List.mem_of_mem_dropLast hmem)
  rw [hstart, hstop, Position.after_append, Position.line_advanceAll, hfeeds]
  rfl

end Source

namespace Grammar

theorem exists_of_mem_names {phrase : Phrase} {v : String} (h : v ∈ phrase.names) :
    ∃ t ∈ phrase.content, v ∈ t.lexeme.names := by
  cases phrase with
  | declaration keyword name target equals value =>
    obtain ⟨t, ht, hv⟩ := List.mem_flatMap.mp h
    exact ⟨t, List.mem_cons_of_mem _ (List.mem_cons_of_mem _ ht), hv⟩
  | printText => cases h
  | printValue keyword value => exact List.mem_flatMap.mp h
  | conditional keyword test | alternative keyword test | loop keyword test =>
    rcases List.mem_append.mp h with hv | hv
    · exact ⟨test.left, List.mem_cons_self, hv⟩
    · exact ⟨test.right, List.mem_of_getLast? rfl, hv⟩

theorem exists_of_declares {phrase : Phrase} {v : String}
    (h : Lint.declaredName? phrase.tree = some v) : ∃ t ∈ phrase.content, v ∈ t.lexeme.names := by
  cases phrase with
  | declaration keyword name target equals value =>
    cases h
    refine ⟨target, List.mem_cons_self, ?_⟩
    rw [target.property]
    exact List.mem_cons_self
  | _ => cases h

end Grammar

namespace Program

open Grammar Source

/-- The names that a statement gives a value or reads are names of the source. -/
theorem mem_names_of_statement (hscan : scan file source = .ok tokens)
    (h : ofTokens tokens = .ok p) {s : Statement} (hs : s ∈ statements p) {v : String}
    (hv : Lint.declaredName? s = some v ∨ v ∈ Lint.usedNames s) : v ∈ names tokens := by
  obtain ⟨d, hd, rfl⟩ := exists_derivation_of_ofTokens h
  rw [statements_tree] at hs
  obtain ⟨phrase, hphrase, rfl⟩ := List.mem_map.mp hs
  rw [Lint.usedNames_tree (wellSpelt_of_mem_phrases hscan hd hphrase)] at hv
  obtain ⟨t, ht, hv⟩ := hv.elim exists_of_declares exists_of_mem_names
  rw [← hd]
  exact mem_names (mem_tokens_of_own hphrase (List.mem_cons_of_mem _ ht)) hv

/-- Whatever has a value at the end of a run is a name of the source. -/
theorem mem_names_of_run (hscan : scan file source = .ok tokens) (h : ofTokens tokens = .ok p)
    (breakpoints : Breakpoints) (cap : Cap) {v : String}
    (hv : (p.run breakpoints cap).environment.get? v ≠ none) : v ∈ names tokens := by
  by_contra hnot
  apply hv
  have hdeclares : ¬ Declares p v := by
    rintro ⟨s, hs, hname⟩
    exact hnot (mem_names_of_statement hscan h hs (Or.inl hname))
  exact exec_frame hdeclares (.start breakpoints cap)

end Program

namespace Environment

theorem get?_of_mem {env : Environment} {e : String × Float} (h : e ∈ env.entries) :
    env.get? e.1 ≠ none := by
  have hentries : ∀ entries : List (String × Float), e ∈ entries →
      lookupEntries e.1 entries ≠ none := by
    intro entries he
    induction entries with
    | nil => cases he
    | cons other entries ih =>
      rw [lookupEntries]
      by_cases heq : other.1 = e.1
      · rw [if_pos heq]
        exact Option.some_ne_none _
      · rw [if_neg heq]
        exact ih ((List.mem_cons.mp he).resolve_left fun hsame => heq (hsame ▸ rfl))
  exact hentries env.entries h

theorem rename_congr {env : Environment} {f g : String → String}
    (h : ∀ v, env.get? v ≠ none → f v = g v) : env.rename f = env.rename g := by
  unfold rename
  refine congrArg ofList (List.map_congr_left fun e he => ?_)
  rw [h e.1 (get?_of_mem he)]

end Environment

namespace Lint

open Source

/-- Names that lint finds fault with are names of the source. -/
theorem mem_names_of_finding (hscan : scan file source = .ok tokens)
    (h : Program.ofTokens tokens = .ok p) {f : Finding} (hf : f ∈ findings tokens p) {v : String}
    (hv : v ∈ f.subject.names) : v ∈ names tokens := by
  obtain ⟨test, body, loc, hs, rfl⟩ | ⟨name, value, loc, hs, rfl⟩ | ⟨name, s, hs, hused, rfl⟩ :=
    findings_cases hf
  · apply Program.mem_names_of_statement hscan h hs
    right
    change v ∈ operandNames test
    rw [operandNames_eq]
    exact List.mem_append_left _ hv
  · rw [List.mem_singleton.mp hv]
    exact Program.mem_names_of_statement hscan h hs (Or.inl rfl)
  · rw [List.mem_singleton.mp hv]
    exact Program.mem_names_of_statement hscan h hs (Or.inr hused)

theorem mem_of_nameTokenAt? {loc : Position} {t : Token} (h : nameTokenAt? tokens loc = some t) :
    t ∈ tokens ∧ ∃ v, t.lexeme = .identifier v := by
  unfold nameTokenAt? at h
  obtain ⟨⟨keyword, name⟩, hfind, rfl⟩ := Option.map_eq_some_iff.mp h
  rw [List.findRev?_eq_find?_reverse] at hfind
  have hmem := List.mem_reverse.mp (List.mem_of_find?_eq_some hfind)
  have hpair := List.find?_some hfind
  refine ⟨List.mem_of_mem_tail (List.of_mem_zip hmem).2, ?_⟩
  dsimp only at hpair
  split at hpair
  · next v _ hv => exact ⟨v, hv⟩
  · cases hpair

/-- A warning that has an end ends at a name. -/
theorem target_of_finding {f : Finding} (hf : f ∈ findings tokens p) {t : Token}
    (ht : f.target = some t) : t ∈ tokens ∧ ∃ v, t.lexeme = .identifier v := by
  obtain ⟨_, _, _, _, rfl⟩ | ⟨_, _, _, _, rfl⟩ | ⟨_, _, _, _, rfl⟩ := findings_cases hf
  · cases ht
  · exact mem_of_nameTokenAt? ht
  · cases ht

/-- The warning about the translation of a finding says the same of the new name,
on the same lines. -/
theorem diagnostic_translate (hscan : scan file source = .ok tokens)
    (hscan' : scan file source' = .ok (tokens.map (Token.translate τ)))
    (h : Program.ofTokens tokens = .ok p) (hnames : ∀ v ∈ names tokens, τ.names.text v = r v)
    (hlines : ∀ q, (τ.start q).line = q.line) {f : Finding} (hf : f ∈ findings tokens p) :
    ((f.translate τ).diagnostic.message, (f.translate τ).diagnostic.site) =
      ((f.rename r).diagnostic.message, f.diagnostic.site) := by
  have hsubject : f.subject.rename τ.names.text = f.subject.rename r :=
    Lexeme.rename_congr fun v hv => hnames v (mem_names_of_finding hscan h hf hv)
  have hend : (f.translate τ).diagnostic.endLine = f.diagnostic.endLine := by
    change (f.target.map (Token.translate τ)).map (·.span.stop.line) =
      f.target.map (·.span.stop.line)
    rw [Option.map_map]
    apply Option.map_congr
    intro t ht
    obtain ⟨hmem, v, hv⟩ := target_of_finding hf ht
    have hv' : (t.translate τ).lexeme = .identifier (τ.names.text v) :=
      congrArg (Lexeme.rename τ.names.text) hv
    calc (t.translate τ).span.stop.line
      _ = (τ.start t.span.start).line :=
        stop_line_of_name hscan' (List.mem_map_of_mem hmem) hv'
      _ = t.span.start.line := hlines _
      _ = t.span.stop.line := (stop_line_of_name hscan hmem hv).symm
  refine Prod.ext ?_ (Prod.ext (hlines f.loc) (Prod.ext hend rfl))
  change f.flaw.message (f.subject.rename τ.names.text).value =
    f.flaw.message (f.subject.rename r).value
  rw [hsubject]

end Lint

theorem Diagnostic.site_of_mirrors (hlines : ∀ q, (τ.start q).line = q.line) {d d' : Diagnostic}
    (h : d.Mirrors τ d') : d'.site = d.site := by
  cases h with
  | fault cause loc => exact Prod.ext (hlines loc) rfl
  | notice => exact Prod.ext (hlines d.start) rfl

theorem Report.renamed_of_mirrors {found : List Lint.Finding} {a b : Report}
    (hlines : ∀ q, (τ.start q).line = q.line)
    (hfound : ∀ f ∈ found, ((f.translate τ).diagnostic.message, (f.translate τ).diagnostic.site) =
      ((f.rename r).diagnostic.message, f.diagnostic.site))
    (h : a.Mirrors τ found b) : a.Renamed r found b where
  status := h.status
  output := h.output
  partialOutput := h.partialOutput
  limitReached := h.limitReached
  diagnostics := h.map_diagnostics fun _ _ hd => Diagnostic.site_of_mirrors hlines hd
  breakpoint := by
    rw [h.breakpoint, Option.map_map]
    exact Option.map_congr fun q _ => hlines q
  trace := by
    rw [h.trace, List.map_map]
    exact List.map_congr_left fun f _ => Prod.ext rfl (hlines f.loc)
  warnings := h.warnings
  renamed := by
    rw [h.translated, List.map_map]
    exact List.map_congr_left hfound

/-- Places keep their lines if tokens do and nothing else is moved. -/
theorem Translation.line_start
    (hrenamed : List.Forall₂ (Token.Renamed r) tokens (tokens.map (Token.translate τ)))
    (helsewhere : ∀ q, (∀ t ∈ tokens, t.span.start ≠ q) → τ.start q = q) (q : Position) :
    (τ.start q).line = q.line := by
  rw [List.forall₂_map_right_iff, List.forall₂_same] at hrenamed
  by_cases hstart : ∃ t ∈ tokens, t.span.start = q
  · obtain ⟨t, ht, rfl⟩ := hstart
    exact (hrenamed t ht).line
  · rw [helsewhere q fun t ht heq => hstart ⟨t, ht, heq⟩]

namespace Request

theorem answeredRenamed_of_renamed (hscan : Source.scan file source = .ok tokens)
    (hparse : Program.ofTokens tokens = .ok p)
    (hscan' : Source.scan file source' = .ok tokens')
    (hrenamed : List.Forall₂ (Token.Renamed r) tokens tokens')
    (hnames : ∀ v ∈ Source.names tokens, IsName (r v))
    (hinj : ∀ v ∈ Source.names tokens, ∀ w ∈ Source.names tokens, r v = r w → v = w) :
    ∃ p', Program.ofTokens tokens' = .ok p' ∧ ∀ breakpoints cap, 1 ≤ cap →
      AnsweredRenamed r file source source' (Lint.findings tokens p) p p' breakpoints cap := by
  obtain ⟨ρ, hρ⟩ := Source.exists_renaming hscan hnames hinj
  have hrenders := Source.renders_of_renamed hscan hscan' hρ hrenamed
  obtain ⟨τ, rfl, -, rfl, helsewhere⟩ :=
    Translation.exists_of_renders hrenders (Source.nodup_starts_of_scan hscan)
  have hlines := Translation.line_start hrenamed helsewhere
  refine ⟨Program.translate τ p, Program.ofTokens_translate τ hparse, ?_⟩
  intro breakpoints cap hcap
  have hrespects : τ.Respects breakpoints := fun q => by rw [hlines q]
  obtain ⟨o, o', a, b, hrun, hrun', houtcome, ha, hb, hmirrors⟩ :=
    report_mirrors hscan hscan' hparse hrespects hcap
  have henvironment : o'.environment = o.environment.rename r := by
    rw [houtcome.environment]
    apply Environment.rename_congr
    intro v hv
    obtain ⟨c, _, hok⟩ := Program.run?_eq_ok (Program.genuine_of_ofTokens hparse) breakpoints hcap
    cases hrun.symm.trans hok
    exact hρ v (Program.mem_names_of_run hscan hparse breakpoints c hv)
  refine ⟨o, o', a, b, hrun, hrun', henvironment, ha, hb, ?_⟩
  exact Report.renamed_of_mirrors hlines
    (fun f hf => Lint.diagnostic_translate hscan hscan' hparse hρ hlines hf) hmirrors

/-- A program can be written with other names, if these are kept apart, and however
it is written with them, line by line, it is a program that does the same and of
which the same is told, in the new names. -/
theorem report_renamed (hscan : Source.scan file source = .ok tokens)
    (hparse : Program.ofTokens tokens = .ok p)
    (hnames : ∀ v ∈ Source.names tokens, IsName (r v))
    (hinj : ∀ v ∈ Source.names tokens, ∀ w ∈ Source.names tokens, r v = r w → v = w) :
    (∃ source' tokens', Source.scan file source' = .ok tokens' ∧
      List.Forall₂ (Token.Renamed r) tokens tokens') ∧
    ∀ source' tokens', Source.scan file source' = .ok tokens' →
      List.Forall₂ (Token.Renamed r) tokens tokens' →
      ∃ p', Program.ofTokens tokens' = .ok p' ∧ ∀ breakpoints cap, 1 ≤ cap →
        AnsweredRenamed r file source source' (Lint.findings tokens p) p p' breakpoints cap := by
  refine ⟨Source.exists_renamed hscan hnames, ?_⟩
  intro source' tokens' hscan' hrenamed
  exact answeredRenamed_of_renamed hscan hparse hscan' hrenamed hnames hinj

end Request

end

namespace Sample

/-- Two of the names exchanged, and one replaced by a name that reads like a number
too large to be shown. -/
def otherName : String → String
  | "a" => "x"
  | "i" => "inf"
  | "x" => "a"
  | name => name

/-- The program with one warning of each kind, with other names and wider gaps. -/
def renamedSource : String :=
  Text.joinLines ["maano x = 1", "maano  inf = 0", "jabtak inf < 2 \x7b", "likho inf", "\x7d",
    "likho a+1"]

def renamedTokens : List Token :=
  match Source.scan Source.unnamed renamedSource with
  | .ok tokens => tokens
  | .error _ => []

theorem scan_renamed : Source.scan Source.unnamed renamedSource = .ok renamedTokens := by
  decide +kernel

theorem isName_otherName : ∀ v ∈ Source.names warnedTokens, IsName (otherName v) := by
  have hnames : ∀ v ∈ Source.names warnedTokens, v ∈ ["a", "i", "x"] := by decide +kernel
  intro v hv
  have hv := hnames v hv
  simp only [List.mem_cons, List.not_mem_nil, or_false] at hv
  rcases hv with rfl | rfl | rfl
  · exact ⟨by decide, List.all_eq_true.mp rfl, by rintro ⟨⟩ <;> decide⟩
  · exact ⟨by decide, List.all_eq_true.mp rfl, by rintro ⟨⟩ <;> decide⟩
  · exact ⟨by decide, List.all_eq_true.mp rfl, by rintro ⟨⟩ <;> decide⟩

end Sample

theorem Request.report_renamed_sample :
    List.Forall₂ (Token.Renamed Sample.otherName) Sample.warnedTokens Sample.renamedTokens ∧
    ∃ p', Program.ofTokens Sample.renamedTokens = .ok p' ∧
      AnsweredRenamed Sample.otherName Source.unnamed Sample.warnedSource Sample.renamedSource
        (Lint.findings Sample.warnedTokens Sample.warnedProgram) Sample.warnedProgram p'
        .empty 2 := by
  have hrenamed : List.Forall₂ (Token.Renamed Sample.otherName) Sample.warnedTokens
      Sample.renamedTokens := by decide +kernel
  obtain ⟨_, hall⟩ := report_renamed Sample.scan_warned Sample.ofTokens_warned
    Sample.isName_otherName (by decide +kernel)
  obtain ⟨p', hparse, hanswered⟩ := hall _ _ Sample.scan_renamed hrenamed
  exact ⟨hrenamed, p', hparse, hanswered .empty 2 (by decide)⟩

end Crafter
