import Crafter.Proofs.Agreement
import Crafter.Proofs.Located
import Crafter.Proofs.Pausing

/-! Every request is answered, unless its text holds a number that is too long.
The parts of an answer fit its status, so that it can always be told as text. -/
namespace Crafter

/-- The notices are about loops that were cut off, and there are some if there
was such a loop. -/
structure Machine.Noted (m : Machine) : Prop where
  concern : ∀ d ∈ m.notices, d.concern = .limit
  limitReached : m.limitReached = true ↔ ∃ d, d ∈ m.notices

namespace Machine

theorem noted_start (breakpoints : Breakpoints) (cap : Cap) : (start breakpoints cap).Noted := by
  have hempty : ∀ d, d ∉ (start breakpoints cap).notices := Array.not_mem_empty
  refine ⟨fun d hd => absurd hd (hempty d), nofun, ?_⟩
  rintro ⟨d, hd⟩
  exact absurd hd (hempty d)

theorem noted_cutOff {m : Machine} (h : m.Noted) (loc : Position) : (m.cutOff loc).Noted := by
  have hnotice : limitNotice m.cap loc ∈ (m.cutOff loc).notices := Array.mem_push_self
  refine ⟨?_, fun _ => ⟨_, hnotice⟩, fun _ => rfl⟩
  intro d hd
  rcases Array.mem_push.mp hd with hd | rfl
  · exact h.concern d hd
  · rfl

theorem noted_law : Step.Law fun m step => m.Noted → step.2.Noted :=
  .of_invariant (fun _ _ _ h => ⟨h.concern, h.limitReached⟩)
    (fun _ _ h => ⟨h.concern, h.limitReached⟩) (fun _ loc h => noted_cutOff h loc)
    (fun _ _ h => ⟨h.concern, h.limitReached⟩) (fun _ h => ⟨h.concern, h.limitReached⟩)

end Machine

/-- The parts of the report fit its status. -/
structure Report.WellFormed (r : Report) : Prop where
  syntaxError : r.status = .syntaxError →
    (∃ d, r.diagnostics = [d] ∧ d.concern = .syntactic) ∧ r.warnings = [] ∧ r.program = none
  runtimeError : r.status = .runtimeError → ∃ d notices, r.diagnostics = d :: notices ∧
    d.concern = .runtime ∧ ∀ notice ∈ notices, notice.concern = .limit
  undisturbed : r.status = .ok ∨ r.status = .paused → ∀ d ∈ r.diagnostics, d.concern = .limit
  limitReached : r.limitReached = true ↔ ∃ d ∈ r.diagnostics, d.concern = .limit
  breakpoint : r.breakpoint.isSome = true ↔ r.status = .paused
  output : r.status ≠ .ok → r.output = ""
  partialOutput : r.status = .ok → r.partialOutput = ""

namespace Report

theorem wellFormed_ofSyntaxError (e : SyntaxError) (tokens : List Token) (reached : Stage) :
    (ofSyntaxError e tokens reached).WellFormed where
  syntaxError _ := ⟨⟨e.diagnostic, rfl, rfl⟩, rfl, rfl⟩
  runtimeError := nofun
  undisturbed := nofun
  limitReached := by
    refine ⟨nofun, ?_⟩
    rintro ⟨d, hd, hconcern⟩
    rw [List.mem_singleton.mp hd] at hconcern
    cases hconcern
  breakpoint := ⟨nofun, nofun⟩
  output _ := rfl
  partialOutput := nofun

theorem wellFormed_ofOutcome (tokens : List Token) (p : Program) {step : Step}
    (hsupported : step.Supported) (hnoted : step.2.Noted) :
    (ofOutcome tokens p (.ofStep step.1 step.2)).WellFormed := by
  obtain ⟨halt, m⟩ := step
  have hnotices : ∀ d ∈ m.notices.toList, d.concern = .limit :=
    fun d hd => hnoted.concern d (Array.mem_toList_iff.mp hd)
  have hlimit : m.limitReached = true ↔ ∃ d ∈ m.notices.toList, d.concern = .limit := by
    rw [hnoted.limitReached]
    constructor
    · rintro ⟨d, hd⟩
      exact ⟨d, Array.mem_toList_iff.mpr hd, hnoted.concern d hd⟩
    · rintro ⟨d, hd, _⟩
      exact ⟨d, Array.mem_toList_iff.mp hd⟩
  have hbreakpoint := Outcome.isSome_breakpoint_iff halt m
  cases halt with
  | none => exact ⟨nofun, nofun, fun _ => hnotices, hlimit, hbreakpoint, fun h => absurd rfl h,
      fun _ => rfl⟩
  | some halt =>
    cases halt with
    | pause loc trace =>
      exact ⟨nofun, nofun, fun _ => hnotices, hlimit, hbreakpoint, fun _ => rfl, nofun⟩
    | fault cause loc trace =>
      have hfirst : m.limitReached = true ↔ ∃ d ∈
          Diagnostic.pointing .error .runtime cause.message loc :: m.notices.toList,
          d.concern = .limit := by
        rw [hlimit]
        constructor
        · rintro ⟨d, hd, hconcern⟩
          exact ⟨d, List.mem_cons_of_mem _ hd, hconcern⟩
        · rintro ⟨d, hd, hconcern⟩
          rcases List.mem_cons.mp hd with rfl | hd
          · cases hconcern
          · exact ⟨d, hd, hconcern⟩
      exact ⟨nofun, fun _ => ⟨_, _, rfl, rfl, hnotices⟩, nofun, hfirst, hbreakpoint,
        fun _ => rfl, nofun⟩
    | unsupported name => exact absurd rfl (hsupported name)

/-- A report whose parts fit its status can be told. -/
theorem exists_text {r : Report} (h : r.WellFormed) (source : Option String) :
    ∃ text, r.text source = .ok text := by
  have hmain : ∃ main, r.mainBlock source = .ok main := by
    unfold mainBlock
    cases hstatus : r.status with
    | ok => exact ⟨_, rfl⟩
    | paused =>
      obtain ⟨loc, hloc⟩ := Option.isSome_iff_exists.mp (h.breakpoint.mpr hstatus)
      rw [hloc]
      exact ⟨_, rfl⟩
    | syntaxError =>
      obtain ⟨⟨d, hd, _⟩, _⟩ := h.syntaxError hstatus
      rw [hd]
      exact ⟨_, rfl⟩
    | runtimeError =>
      obtain ⟨d, notices, hd, _⟩ := h.runtimeError hstatus
      rw [hd]
      exact ⟨_, rfl⟩
  obtain ⟨main, hmain⟩ := hmain
  unfold text
  rw [hmain]
  exact ⟨_, rfl⟩

end Report

namespace Request

/-- Some digit run of the text stands for a finite number and is too long, and
the scan comes to it. -/
def Overlong (source : String) (digits : Nat) : Prop :=
  ∃ t : Source.Tiling source.toList, t.obstacle = some (.numberTooLong digits)

theorem overlong_unique {source : String} {m n : Nat} (hm : Overlong source m)
    (hn : Overlong source n) : m = n := by
  obtain ⟨t, ht⟩ := hm
  obtain ⟨u, hu⟩ := hn
  cases Source.tiling_unique t u
  cases ht.symm.trans hu
  rfl

theorem report_of_tokens (r : Request) (hcap : 1 ≤ r.cap) {tokens : List Token}
    (h : Source.scan r.file r.source = .ok tokens) :
    ∃ report, r.report = .ok report ∧ report.WellFormed := by
  cases hparse : Program.ofBalancedTokens tokens with
  | error e =>
    exact ⟨_, report_of_error h hparse _ _, Report.wellFormed_ofSyntaxError e tokens _⟩
  | ok p =>
    have hp := (Program.ofBalancedTokens_eq_ok_iff tokens p).mp hparse
    have hgenuine := Program.genuine_of_ofTokens hp
    obtain ⟨cap, _, hrun⟩ := Program.run?_eq_ok hgenuine r.breakpoints hcap
    have hnoted := Machine.noted_law.of_program p (Or.inl hgenuine)
      (.start r.breakpoints cap) (Machine.noted_start _ _)
    have hsupported := Program.exec_supported p hgenuine (.start r.breakpoints cap)
    exact ⟨_, report_of_run h hp hrun, Report.wellFormed_ofOutcome tokens p hsupported hnoted⟩

/-- A request has no answer if the scan comes to a number that is too long, and
else it has one. -/
theorem report_cases (r : Request) (hcap : 1 ≤ r.cap) :
    (∃ digits, Overlong r.source digits ∧ r.report = .error (.numberTooLong digits)) ∨
    ((∀ digits, ¬ Overlong r.source digits) ∧
      ∃ report, r.report = .ok report ∧ report.WellFormed) := by
  obtain ⟨t, ht⟩ := Source.scan_cases r.file r.source
  have hother {digits : Nat} (hdigits : Overlong r.source digits) :
      t.obstacle = some (.numberTooLong digits) := by
    obtain ⟨u, hu⟩ := hdigits
    rw [Source.tiling_unique t u]
    exact hu
  rcases ht with ⟨hnone, hscan⟩ | ⟨hopen, hscan⟩ | ⟨c, hstray, _, hscan⟩ | ⟨digits, hlong, hscan⟩
  · right
    refine ⟨fun digits hdigits => ?_, report_of_tokens r hcap hscan⟩
    cases hnone.symm.trans (hother hdigits)
  · right
    refine ⟨fun digits hdigits => ?_, ?_⟩
    · cases hopen.symm.trans (hother hdigits)
    · exact ⟨_, report_of_malformed hscan _ _, Report.wellFormed_ofSyntaxError _ _ _⟩
  · right
    refine ⟨fun digits hdigits => ?_, ?_⟩
    · cases hstray.symm.trans (hother hdigits)
    · exact ⟨_, report_of_malformed hscan _ _, Report.wellFormed_ofSyntaxError _ _ _⟩
  · left
    refine ⟨digits, ⟨t, hlong⟩, ?_⟩
    unfold report
    rw [hscan]

/-- Whether a request has an answer does not depend on its breakpoints. A text
that is no program is an answer, and every answer can be told. -/
theorem report_cases_of_breakpoints (r : Request) :
    (∃ failure, (∀ e, failure ≠ .malformed e) ∧
      ∀ breakpoints, { r with breakpoints := breakpoints }.report = .error failure) ∨
    ∀ breakpoints, ∃ report, { r with breakpoints := breakpoints }.report = .ok report ∧
      report.WellFormed := by
  cases hscan : Source.scan r.file r.source with
  | error failure =>
    by_cases hmalformed : ∃ e, failure = .malformed e
    · obtain ⟨e, rfl⟩ := hmalformed
      exact Or.inr fun _ =>
        ⟨_, report_of_malformed hscan _ _, Report.wellFormed_ofSyntaxError e [] _⟩
    · have hother : ∀ e, failure ≠ .malformed e := fun e he => hmalformed ⟨e, he⟩
      refine Or.inl ⟨failure, hother, fun _ => ?_⟩
      unfold report
      dsimp only
      rw [hscan]
      cases failure with
      | malformed e => exact absurd rfl (hother e)
      | _ => rfl
  | ok tokens =>
    cases hparse : Program.ofBalancedTokens tokens with
    | error e =>
      exact Or.inr fun _ =>
        ⟨_, report_of_error hscan hparse _ _, Report.wellFormed_ofSyntaxError e tokens _⟩
    | ok p =>
      by_cases hcap : 1 ≤ r.cap
      · exact Or.inr fun _ => report_of_tokens _ hcap hscan
      · refine Or.inl ⟨.capTooSmall r.cap, nofun, fun breakpoints => ?_⟩
        unfold report
        dsimp only
        rw [hscan]
        dsimp only
        rw [hparse]
        dsimp only
        rw [Program.run?_of_small hcap]

/-- A request fails only for a number that is too long. Every other one has an
answer whose parts fit together, and which can be told as text. -/
theorem report_answered (r : Request) (hcap : 1 ≤ r.cap) :
    (∀ failure, r.report = .error failure ↔
      ∃ digits, failure = .numberTooLong digits ∧ Overlong r.source digits) ∧
    ((∃ report, r.report = .ok report) ↔ ∀ digits, ¬ Overlong r.source digits) ∧
    ∀ report, r.report = .ok report → report.WellFormed ∧
      ∀ source, ∃ text, report.text source = .ok text := by
  rcases report_cases r hcap with ⟨digits, hlong, herror⟩ | ⟨hnone, answer, hok, hformed⟩
  · rw [herror]
    refine ⟨fun failure => ⟨?_, ?_⟩, ⟨nofun, fun hnone => absurd hlong (hnone digits)⟩, nofun⟩
    · rintro ⟨⟩
      exact ⟨digits, rfl, hlong⟩
    · rintro ⟨other, rfl, hother⟩
      rw [overlong_unique hlong hother]
  · rw [hok]
    refine ⟨fun failure => ⟨nofun, ?_⟩, ⟨fun _ => hnone, fun _ => ⟨answer, rfl⟩⟩, ?_⟩
    · rintro ⟨digits, _, hlong⟩
      exact absurd hlong (hnone digits)
    · rintro _ ⟨⟩
      exact ⟨hformed, Report.exists_text hformed⟩

end Request

/-- The sample program, asked to pause on its line 4. -/
def Sample.request : Request := ⟨source, Source.unnamed, .ofList [4], 2⟩

theorem Request.report_answered_sample : 1 ≤ Sample.request.cap ∧
    ∃ report, Sample.request.report = .ok report ∧ report.WellFormed ∧
      ∀ source, ∃ text, report.text source = .ok text := by
  have hcap : 1 ≤ Sample.request.cap := by decide
  have hok : Sample.request.report.isOk = true := by decide +kernel
  refine ⟨hcap, ?_⟩
  cases hreport : Sample.request.report with
  | error failure =>
    rw [hreport] at hok
    cases hok
  | ok report =>
    exact ⟨report, rfl, (report_answered Sample.request hcap).2.2 report hreport⟩

end Crafter
