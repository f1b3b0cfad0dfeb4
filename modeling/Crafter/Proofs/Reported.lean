import Crafter.Proofs.Agreement
import Crafter.Proofs.Blame
import Crafter.Proofs.Legible
import Crafter.Proofs.Located
import Crafter.Proofs.Pausing
import Crafter.Proofs.Warnings
import Crafter.Report

/-! Every place in a report is a place of the source: an error of the text is at
a character of it, and everything else at the keyword of a statement. -/
namespace Crafter

/-- The keyword that statements of a form begin with. -/
def StatementKind.word? : StatementKind → Option Keyword
  | .declaration => some .declare
  | .print => some .print
  | .conditional => some .branch
  | .loop => some .loop
  | .other _ => none

/-- One of the tokens is the keyword of a statement of the form, and starts at the
place. -/
def StatementKind.OpensAt (tokens : List Token) (kind : StatementKind) (loc : Position) : Prop :=
  ∃ word, kind.word? = some word ∧ ∃ t ∈ tokens, t.lexeme = .keyword word ∧ t.span.start = loc

namespace Program

open Grammar

/-- A statement of a source starts at its keyword. -/
theorem opensAt_of_mem {tokens : List Token} {p : Program} (h : ofTokens tokens = .ok p)
    {s : Statement} (hs : s ∈ statements p) : s.kind.OpensAt tokens s.loc := by
  obtain ⟨d, hd, rfl⟩ := exists_derivation_of_ofTokens h
  rw [statements_tree] at hs
  obtain ⟨phrase, hphrase, rfl⟩ := List.mem_map.mp hs
  have hmem : phrase.keyword ∈ tokens := by
    rw [← hd]
    exact mem_tokens_of_own hphrase List.mem_cons_self
  cases phrase with
  | declaration keyword => exact ⟨.declare, rfl, keyword, hmem, keyword.property, rfl⟩
  | printText keyword | printValue keyword =>
    exact ⟨.print, rfl, keyword, hmem, keyword.property, rfl⟩
  | conditional keyword | alternative keyword =>
    exact ⟨.branch, rfl, keyword, hmem, keyword.property, rfl⟩
  | loop keyword => exact ⟨.loop, rfl, keyword, hmem, keyword.property, rfl⟩

theorem mem_statements_of_mem_path {p way : List Statement} (h : Path p way) {s : Statement}
    (hs : s ∈ way) : s ∈ statements p := by
  induction way generalizing p with
  | nil => cases hs
  | cons t way ih =>
    rcases List.mem_cons.mp hs with rfl | hs
    · exact mem_statements_of_withNested h.1 (self_mem_withNested _)
    · exact mem_statements_of_withNested h.1 (mem_withNested (Or.inr (ih h.2 hs)))

theorem path_of_append {p way more : List Statement} (h : Path p (way ++ more)) : Path p way := by
  induction way generalizing p with
  | nil => trivial
  | cons s way ih => exact ⟨h.1, ih h.2⟩

end Program

/-- The notice is about a loop among the statements that was cut off. -/
def Diagnostic.NoticesIn (scope : List Statement) (d : Diagnostic) : Prop :=
  d.concern = .limit ∧ ∃ test body, .loop test body d.start ∈ scope

theorem Machine.noticed_law (scope : List Statement) :
    Step.LawOn scope fun m step => (∀ d ∈ m.notices, d.NoticesIn scope) →
      ∀ d ∈ step.2.notices, d.NoticesIn scope where
  idle _ h := h
  declare _ _ _ _ _ _ h := h
  print _ _ h := h
  cutOff m test body loc hloop h := by
    intro d hd
    rcases Array.mem_push.mp hd with hd | rfl
    · exact h d hd
    · exact ⟨rfl, test, body, hloop⟩
  fault _ _ _ _ _ h := h
  pause _ _ _ h := h
  within _ _ _ _ h := h
  andThen _ _ _ h h' := h' ∘ h

namespace Lint

/-- A warning about a variable that is never used stands at a declaration of it. -/
theorem mem_unusedWarnings {tokens : List Token} {p : Program} {d : Diagnostic}
    (hd : d ∈ unusedWarnings tokens p) : ∃ name value, .declaration name value d.start ∈
      Program.statements p ∧ d.message = s!"Variable '{name}' is declared but never used." := by
  obtain ⟨⟨name, loc⟩, hmem, rfl⟩ := List.mem_map.mp hd
  obtain ⟨value, hs⟩ := exists_of_mem_declarations (List.mem_of_mem_filter hmem)
  exact ⟨name, value, hs, rfl⟩

/-- A warning about a variable that is never declared stands at a use of it. -/
theorem mem_undeclaredWarnings {p : Program} {d : Diagnostic} (hd : d ∈ undeclaredWarnings p) :
    ∃ name, ∃ s ∈ Program.statements p, name ∈ usedNames s ∧ s.loc = d.start ∧
      d.message = s!"Variable '{name}' is used before declaration." := by
  obtain ⟨⟨name, loc⟩, hmem, rfl⟩ := List.mem_map.mp hd
  obtain ⟨s, hs, hused, hloc⟩ := exists_of_mem_uses (List.mem_of_mem_filter hmem)
  exact ⟨name, s, hs, hused, hloc, rfl⟩

theorem exists_declaration_of_warning {tokens : List Token} {p : Program} {d : Diagnostic}
    (hd : d ∈ warnings tokens p) {name : String}
    (hmessage : d.message = s!"Variable '{name}' is declared but never used.") :
    ∃ value, .declaration name value d.start ∈ Program.statements p := by
  rw [warnings, List.append_assoc] at hd
  rcases List.mem_append.mp hd with hd | hd
  · obtain ⟨test, body, loc, _, _, rfl⟩ := (mem_loopWarnings_iff p d).mp hd
    exact absurd hmessage (loop_message_ne _ name "' is declared but never used.")
  rcases List.mem_append.mp hd with hd | hd
  · obtain ⟨other, value, hs, hother⟩ := mem_unusedWarnings hd
    cases framed_injective "Variable '" "' is declared but never used."
      (hother.symm.trans hmessage)
    exact ⟨value, hs⟩
  · obtain ⟨other, _, _, _, _, hother⟩ := mem_undeclaredWarnings hd
    exact absurd (hother.symm.trans hmessage) (framed_ne_of_back (by decide) (by decide) _ _)

theorem exists_use_of_warning {tokens : List Token} {p : Program} {d : Diagnostic}
    (hd : d ∈ warnings tokens p) {name : String}
    (hmessage : d.message = s!"Variable '{name}' is used before declaration.") :
    ∃ s ∈ Program.statements p, name ∈ usedNames s ∧ s.loc = d.start := by
  rw [warnings, List.append_assoc] at hd
  rcases List.mem_append.mp hd with hd | hd
  · obtain ⟨test, body, loc, _, _, rfl⟩ := (mem_loopWarnings_iff p d).mp hd
    exact absurd hmessage (loop_message_ne _ name "' is used before declaration.")
  rcases List.mem_append.mp hd with hd | hd
  · obtain ⟨other, value, hs, hother⟩ := mem_unusedWarnings hd
    exact absurd (hother.symm.trans hmessage) (framed_ne_of_back (by decide) (by decide) _ _)
  · obtain ⟨other, s, hs, hused, hloc, hother⟩ := mem_undeclaredWarnings hd
    cases framed_injective "Variable '" "' is used before declaration."
      (hother.symm.trans hmessage)
    exact ⟨s, hs, hused, hloc⟩

/-- Every warning stands at a statement. -/
theorem exists_statement_of_warning {tokens : List Token} {p : Program} {d : Diagnostic}
    (hd : d ∈ warnings tokens p) : ∃ s ∈ Program.statements p, s.loc = d.start := by
  rw [warnings, List.append_assoc] at hd
  rcases List.mem_append.mp hd with hd | hd
  · obtain ⟨test, body, loc, hs, _, rfl⟩ := (mem_loopWarnings_iff p d).mp hd
    exact ⟨_, hs, rfl⟩
  rcases List.mem_append.mp hd with hd | hd
  · obtain ⟨_, _, hs, _⟩ := mem_unusedWarnings hd
    exact ⟨_, hs, rfl⟩
  · obtain ⟨_, s, hs, _, hloc, _⟩ := mem_undeclaredWarnings hd
    exact ⟨s, hs, hloc⟩

end Lint

/-- The warnings stand at keywords of statements of the program, each at one of the
right form. -/
structure Lint.Placed (tokens : List Token) (p : Program) (warnings : List Diagnostic) : Prop where
  statement : ∀ d ∈ warnings, ∃ s ∈ Program.statements p, s.loc = d.start ∧
    s.kind.OpensAt tokens d.start
  loop : ∀ d ∈ warnings, ∀ value : String, d.message =
      s!"Loop variable '{value}' is never updated " ++
        "inside the loop (possible infinite loop)." →
    StatementKind.loop.OpensAt tokens d.start
  unused : ∀ d ∈ warnings, ∀ name : String, d.message =
      s!"Variable '{name}' is declared but never used." →
    StatementKind.declaration.OpensAt tokens d.start
  undeclared : ∀ d ∈ warnings, ∀ name : String, d.message =
      s!"Variable '{name}' is used before declaration." →
    ∃ s ∈ Program.statements p, name ∈ Lint.usedNames s ∧ s.kind.OpensAt tokens d.start

/-- The places in a report on a program are those of its statements' keywords, each
of a statement of the right form. -/
structure Report.Placed (p : Program) (r : Report) : Prop where
  diagnostics : ∀ d ∈ r.diagnostics,
    (d.concern = .runtime ∧ ∃ f, r.trace.getLast? = some f ∧ f.loc = d.start ∧
      f.kind.OpensAt r.tokens d.start) ∨
    (d.concern = .limit ∧ StatementKind.loop.OpensAt r.tokens d.start)
  trace : ∀ f ∈ r.trace, f.kind.OpensAt r.tokens f.loc
  breakpoint : ∀ loc ∈ r.breakpoint, ∃ s ∈ Program.statements p, s.loc = loc ∧
    s.kind.OpensAt r.tokens loc
  warnings : Lint.Placed r.tokens p r.warnings

variable {tokens : List Token} {p : Program}

theorem Lint.placed_warnings (h : Program.ofTokens tokens = .ok p) :
    Placed tokens p (warnings tokens p) where
  statement d hd := by
    obtain ⟨s, hs, hloc⟩ := exists_statement_of_warning hd
    exact ⟨s, hs, hloc, hloc ▸ Program.opensAt_of_mem h hs⟩
  loop d hd value hmessage := by
    obtain ⟨test, body, hs, _⟩ := exists_loop_of_warning hd hmessage
    exact Program.opensAt_of_mem h hs
  unused d hd name hmessage := by
    obtain ⟨value, hs⟩ := exists_declaration_of_warning hd hmessage
    exact Program.opensAt_of_mem h hs
  undeclared d hd name hmessage := by
    obtain ⟨s, hs, hused, hloc⟩ := exists_use_of_warning hd hmessage
    exact ⟨s, hs, hused, hloc ▸ Program.opensAt_of_mem h hs⟩

namespace Report

theorem opensAt_of_path (h : Program.ofTokens tokens = .ok p) {way : List Statement}
    (hway : Program.Path p way) : ∀ f ∈ way.map Statement.frame, f.kind.OpensAt tokens f.loc := by
  intro f hf
  obtain ⟨s, hs, rfl⟩ := List.mem_map.mp hf
  exact Program.opensAt_of_mem h (Program.mem_statements_of_mem_path hway hs)

/-- Whatever a run is stopped by happens at a statement of the program. -/
theorem placed_ofOutcome (h : Program.ofTokens tokens = .ok p) {halt : Option Halt} {m : Machine}
    (hlocated : Step.Located [] p (halt, m)) (hsupported : Step.Supported (halt, m))
    (hnotices : ∀ d ∈ m.notices, d.NoticesIn (Program.statements p)) :
    (ofOutcome tokens p (.ofStep halt m)).Placed p := by
  have hwarnings := Lint.placed_warnings h
  have hlimit : ∀ d ∈ m.notices.toList, d.concern = .limit ∧
      StatementKind.loop.OpensAt tokens d.start := by
    intro d hd
    obtain ⟨hconcern, test, body, hloop⟩ := hnotices d (Array.mem_toList_iff.mp hd)
    exact ⟨hconcern, Program.opensAt_of_mem h hloop⟩
  cases halt with
  | none => exact ⟨fun d hd => Or.inr (hlimit d hd), nofun, nofun, hwarnings⟩
  | some halt =>
    have hhalt := hlocated halt rfl
    cases hhalt with
    | @fault way s cause path =>
      have hs := Program.opensAt_of_mem h (Program.mem_statements_of_path path)
      have hlast : ([] ++ (way ++ [s]).map Statement.frame).getLast? = some s.frame := by
        rw [List.nil_append, List.map_append, List.map_singleton, List.getLast?_concat]
      refine ⟨?_, opensAt_of_path h path, nofun, hwarnings⟩
      intro d hd
      rcases List.mem_cons.mp hd with rfl | hd
      · exact Or.inl ⟨rfl, s.frame, hlast, rfl, hs⟩
      · exact Or.inr (hlimit d hd)
    | @pause way s path =>
      have hs := Program.mem_statements_of_path path
      refine ⟨fun d hd => Or.inr (hlimit d hd), ?_, ?_, hwarnings⟩
      · exact opensAt_of_path h (Program.path_of_append path)
      · rintro loc ⟨⟩
        exact ⟨s, hs, rfl, Program.opensAt_of_mem h hs⟩
    | unsupported name => exact absurd rfl (hsupported name)

end Report

namespace Request

theorem status_ofStep (halt : Option Halt) (m : Machine) :
    (Outcome.ofStep halt m).status ≠ .syntaxError := by
  cases halt with
  | none => exact nofun
  | some halt => cases halt <;> exact nofun

theorem run_placed (h : Program.ofTokens tokens = .ok p) {breakpoints : Breakpoints} {cap : Int}
    {o : Outcome} (hrun : p.run? breakpoints cap = .ok o) :
    o.status ≠ .syntaxError ∧ (Report.ofOutcome tokens p o).Placed p := by
  have hgenuine := Program.genuine_of_ofTokens h
  by_cases hcap : 1 ≤ cap
  · obtain ⟨c, _, hrun'⟩ := Program.run?_eq_ok hgenuine breakpoints hcap
    cases hrun.symm.trans hrun'
    have hnotices := (Machine.noticed_law (Program.statements p)).of_program p
      (List.Subset.refl _) (Or.inl hgenuine) (.start breakpoints c)
      (fun d hd => absurd hd (Array.not_mem_empty d))
    exact ⟨status_ofStep _ _, Report.placed_ofOutcome h
      (Program.exec_located p (.start breakpoints c))
      (Program.exec_supported p hgenuine (.start breakpoints c)) hnotices⟩
  · rw [Program.run?_of_small hcap] at hrun
    cases hrun

/-- Every place in the answer to a request is real. A text that is no program is
reported at one of its characters, with the lines around it; everything else is
reported at the keyword of a statement. -/
theorem report_placed (r : Request) {report : Report} (h : r.report = .ok report) :
    (report.status = .syntaxError → ∃ e, report.diagnostics = [e.diagnostic] ∧
      Program.ofSource r.file r.source = .error (.malformed e) ∧ e.Placed r.file r.source) ∧
    (report.status ≠ .syntaxError → Source.scan r.file r.source = .ok report.tokens ∧
      ∃ p, Program.ofTokens report.tokens = .ok p ∧ report.program = some p ∧ report.Placed p) := by
  obtain ⟨e, hscan, rfl⟩ | ⟨tokens, hscan, ⟨e, hparse, rfl⟩ | ⟨p, o, hp, hrun, rfl⟩⟩ :=
    eq_of_report h
  · have hsource : Program.ofSource r.file r.source = .error (.malformed e) := by
      unfold Program.ofSource
      rw [hscan]
      rfl
    exact ⟨fun _ => ⟨e, rfl, hsource, SyntaxError.placed_of_scan_error hscan⟩,
      fun hstatus => absurd rfl hstatus⟩
  · have hsource : Program.ofSource r.file r.source =
        .error (.malformed (e.within r.source)) := by
      unfold Program.ofSource Program.ofTokensOf
      rw [hscan]
      dsimp only [bind, Except.bind]
      rw [hparse]
    refine ⟨fun _ => ⟨e.within r.source, rfl, hsource, ?_⟩, fun hstatus => absurd rfl hstatus⟩
    exact SyntaxError.placed_of_blames hscan (Program.ofBalancedTokens_blames hparse)
  · obtain ⟨hstatus, hplaced⟩ := run_placed hp hrun
    exact ⟨fun h => absurd h hstatus, fun _ => ⟨hscan, p, hp, rfl, hplaced⟩⟩

end Request

namespace Sample

/-- The sample with a second block inside the first one, as a request. -/
def brokenRequest : Request := ⟨brokenSource, Source.unnamed, .empty, 2⟩

/-- The sample program, run up to its fault. -/
def faultyRequest : Request := ⟨source, Source.unnamed, .empty, 2⟩

def statusOf? (r : Request) : Option Status :=
  match r.report with
  | .ok report => some report.status
  | .error _ => none

theorem exists_report {r : Request} {status : Status} (h : statusOf? r = some status) :
    ∃ report, r.report = .ok report ∧ report.status = status := by
  unfold statusOf? at h
  cases hreport : r.report with
  | ok report =>
    rw [hreport] at h
    exact ⟨report, rfl, Option.some.inj h⟩
  | error failure =>
    rw [hreport] at h
    cases h

end Sample

theorem Request.report_placed_sample :
    (∃ report, Sample.brokenRequest.report = .ok report ∧ ∃ e : SyntaxError,
      report.diagnostics = [e.diagnostic] ∧ e.Placed Source.unnamed Sample.brokenSource) ∧
    ∃ report, Sample.faultyRequest.report = .ok report ∧ report.status = .runtimeError ∧
      ∃ p, Program.ofTokens report.tokens = .ok p ∧ report.Placed p := by
  constructor
  · have hstatus : Sample.statusOf? Sample.brokenRequest = some .syntaxError := by decide +kernel
    obtain ⟨report, hreport, hstatus⟩ := Sample.exists_report hstatus
    obtain ⟨e, hdiagnostics, _, hplaced⟩ := (report_placed _ hreport).1 hstatus
    exact ⟨report, hreport, e, hdiagnostics, hplaced⟩
  · have hstatus : Sample.statusOf? Sample.faultyRequest = some .runtimeError := by decide +kernel
    obtain ⟨report, hreport, hstatus⟩ := Sample.exists_report hstatus
    have hran : report.status ≠ .syntaxError := by
      rw [hstatus]
      exact nofun
    obtain ⟨_, p, hp, _, hplaced⟩ := (report_placed _ hreport).2 hran
    exact ⟨report, hreport, hstatus, p, hp, hplaced⟩

end Crafter
