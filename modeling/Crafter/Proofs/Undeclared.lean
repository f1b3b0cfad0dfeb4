import Crafter.Proofs.Genuine
import Crafter.Proofs.Legible
import Crafter.Proofs.Reaching
import Crafter.Proofs.Warnings
import Crafter.Run.Outcome

/-! Uses of variables that are never declared. Such a variable never gets a value,
so that every statement that mentions it ends the run if it is begun; and a run
that ends because a variable has no value ends at a statement that mentions it. -/
namespace Crafter

/-- If the step ends in a fault, it is the one of a statement of the scope. -/
def Step.FaultIn (scope : List Statement) (step : Step) : Prop :=
  ∀ cause loc trace, step.1 = some (.fault cause loc trace) →
    ∃ s ∈ scope, s.loc = loc ∧ ∃ env, s.Fails env cause

theorem faultIn_law (scope : List Statement) :
    Step.LawOn scope fun _ step => step.FaultIn scope where
  idle _ := nofun
  declare _ _ _ _ _ _ := nofun
  print _ _ := nofun
  cutOff _ _ _ _ _ := nofun
  fault m s cause hs hfails := by
    rintro _ _ _ ⟨⟩
    exact ⟨s, hs, rfl, m.environment, hfails⟩
  pause _ _ _ := nofun
  within _ _ _ _ h := h
  andThen _ _ _ _ h := h

/-- The message tells which variable has no value. -/
theorem Fault.eq_undefined_of_message {cause : Fault} {name : String}
    (h : cause.message = s!"Undefined variable '{name}'") : cause = .undefined name := by
  have other (front rest : String) (hfront : ¬ front.toList <+: "Undefined variable '".toList)
      (hfront' : ¬ "Undefined variable '".toList <+: front.toList) :
      front ++ rest ≠ s!"Undefined variable '{name}'" := by
    intro heq
    exact framed_ne_of_front hfront hfront' _ _ (heq.trans String.append_assoc)
  cases cause with
  | undefined found => exact congrArg _ (framed_injective "Undefined variable '" "'" h)
  | missingOperand =>
    exact absurd h (other "Missing" " operand in expression" (by decide) (by decide))
  | invalidOperand text =>
    exact absurd (String.append_assoc.symm.trans h)
      (other "Invalid operand '" _ (by decide) (by decide))
  | divisionByZero => exact absurd h (other "Division" " by zero" (by decide) (by decide))

namespace Program

variable {file source : String} {tokens : List Token} {p : Program}

/-- A statement that mentions a variable without a value ends the run. -/
theorem halts_of_mention {s : Statement} {rest : List Statement} {m n : Machine}
    (hreads : s.ReadsOnly (Lint.usedNames s)) {name : String} (hname : name ∈ Lint.usedNames s)
    (hnone : n.environment.get? name = none) (free : s.loc.line ∉ n.breakpoints)
    (hreaches : Reaches p m (s :: rest) n) :
    ∃ cause trace, (exec p m).1 = some (.fault cause s.loc trace) := by
  obtain ⟨cause, hfails⟩ := Statement.fails_of_unbound hreads hname hnone
  refine ⟨cause, (n.enter s.frame).trace, halts_of_reaches hreaches (halts_cons ?_)⟩
  rw [exec_of_fails hfails free]
  rfl

/-- A run that faults is shown with the place of the fault. -/
theorem run_of_fault {breakpoints : Breakpoints} {cap : Cap} {cause : Fault} {loc : Position}
    {trace : List Frame}
    (h : (exec p (.start breakpoints cap)).1 = some (.fault cause loc trace)) :
    (p.run breakpoints cap).status = .runtimeError ∧
      (p.run breakpoints cap).fault = some (.pointing .error .runtime cause.message loc) := by
  unfold run
  rw [← Prod.eta (exec p (.start breakpoints cap)), h]
  exact ⟨rfl, rfl⟩

theorem exists_fault_of_run {breakpoints : Breakpoints} {cap : Cap} {d : Diagnostic}
    (h : (p.run breakpoints cap).fault = some d) : ∃ cause trace,
      (exec p (.start breakpoints cap)).1 = some (.fault cause d.start trace) ∧
      d.message = cause.message := by
  unfold run at h
  cases hexec : exec p (.start breakpoints cap) with
  | mk halt m =>
    rw [hexec] at h
    cases halt with
    | none => cases h
    | some halt =>
      cases halt with
      | fault cause loc trace =>
        cases h
        exact ⟨cause, trace, rfl, rfl⟩
      | pause | unsupported => cases h

/-- What lint's warning of an undeclared variable says about runs: the variable has
no value wherever the run comes, and the run ends with a fault at the first
statement begun that mentions it. -/
structure NeverBound (tokens : List Token) (p : Program) (breakpoints : Breakpoints) (cap : Cap)
    (name : String) : Prop where
  unbound : ∀ block m, Reaches p (.start breakpoints cap) block m →
    m.environment.get? name = none ∧ (exec block m).2.environment.get? name = none
  faults : ∀ s ∈ statements p, Mentions tokens s name →
    s.frame ∈ (p.run breakpoints cap).entered → (p.run breakpoints cap).status = .runtimeError ∧
      ∃ d, (p.run breakpoints cap).fault = some d ∧ d.start = s.loc

theorem neverBound_of_reports (hscan : Source.scan file source = .ok tokens)
    (h : ofTokens tokens = .ok p) {shown : List Token} {name : String}
    (hreports : Lint.Reports shown p s!"Variable '{name}' is used before declaration.")
    (breakpoints : Breakpoints) (cap : Cap) : NeverBound tokens p breakpoints cap name := by
  have hlegible := legible_of_scan hscan h
  obtain ⟨_, hundeclared⟩ := (Lint.reports_undeclared_iff shown p name).mp hreports
  have unbound : ∀ block m, Reaches p (.start breakpoints cap) block m →
      m.environment.get? name = none := by
    intro block m hreaches
    rw [get?_of_reaches hreaches hundeclared]
    rfl
  refine ⟨fun block m hreaches => ⟨unbound block m hreaches, ?_⟩, ?_⟩
  · have hblock : ¬ Declares block name := fun ⟨s, hs, hdeclares⟩ =>
      hundeclared ⟨s, statements_subset_of_reaches hreaches hs, hdeclares⟩
    rw [exec_frame hblock, unbound block m hreaches]
  · intro s hs hmentions hentered
    have hmeets : Meets p (.start breakpoints cap) s.frame := by
      have haccounts := exec_accounts p (.start breakpoints cap) s.frame
        (Array.mem_toList_iff.mp hentered)
      exact haccounts.resolve_left (Array.not_mem_empty s.frame)
    obtain ⟨t, rest, n, hreaches, hfree, hframe⟩ := hmeets
    have ht : t ∈ statements p := statements_subset_of_reaches hreaches
      (mem_statements_of_withNested List.mem_cons_self (self_mem_withNested t))
    cases eq_of_loc_eq hlegible ht hs (congrArg Frame.loc hframe)
    rw [mentions_iff hscan h hs] at hmentions
    obtain ⟨cause, trace, hhalt⟩ := halts_of_mention (hlegible.reads s hs) hmentions
      (unbound _ n hreaches) hfree hreaches
    obtain ⟨hstatus, hfault⟩ := run_of_fault hhalt
    exact ⟨hstatus, _, hfault, rfl⟩

/-- What it means that a run ends with a variable as undefined: the one statement
at the place of the error mentions it, and lint has reported the variable or the
program declares it. -/
structure Explained (tokens shown : List Token) (p : Program) (name : String) (loc : Position) :
    Prop where
  mentioned : ∃ s ∈ statements p, s.loc = loc ∧ Mentions tokens s name ∧
    ∀ t ∈ statements p, t.loc = loc → t = s
  expected : Lint.Reports shown p s!"Variable '{name}' is used before declaration." ∨
    Declares p name

theorem explained_of_undefined (hscan : Source.scan file source = .ok tokens)
    (h : ofTokens tokens = .ok p) (shown : List Token) {name : String} {breakpoints : Breakpoints}
    {cap : Cap} {d : Diagnostic} (hfault : (p.run breakpoints cap).fault = some d)
    (hmessage : d.message = s!"Undefined variable '{name}'") :
    Explained tokens shown p name d.start := by
  have hlegible := legible_of_scan hscan h
  obtain ⟨cause, trace, hhalt, hcause⟩ := exists_fault_of_run hfault
  obtain ⟨s, hs, hloc, env, hfails⟩ := (faultIn_law (statements p)).of_program p
    (List.Subset.refl _) (Or.inr nofun) (.start breakpoints cap) cause d.start trace hhalt
  cases Fault.eq_undefined_of_message (hcause.symm.trans hmessage)
  obtain ⟨hused, _⟩ := Statement.unbound_of_fails (hlegible.reads s hs) hfails
  constructor
  · refine ⟨s, hs, hloc, (mentions_iff hscan h hs name).mpr hused, ?_⟩
    intro t ht htloc
    exact eq_of_loc_eq hlegible ht hs (htloc.trans hloc.symm)
  · rw [Lint.reports_undeclared_iff]
    by_cases hdeclares : Declares p name
    · exact Or.inr hdeclares
    · exact Or.inl ⟨⟨s, hs, hused⟩, hdeclares⟩

/-- Lint's warnings of undeclared variables match the faults of runs: a variable
that it reports never has a value, and no run gets past a statement that
mentions it; and where a run ends with an undefined variable, a statement
mentions it that lint has reported or that the program also declares. -/
theorem run_undeclared (hscan : Source.scan file source = .ok tokens)
    (h : ofTokens tokens = .ok p) (shown : List Token) (name : String)
    (breakpoints : Breakpoints) (cap : Cap) :
    p.run? breakpoints cap.count = .ok (p.run breakpoints cap) ∧
    (Lint.Reports shown p s!"Variable '{name}' is used before declaration." →
      NeverBound tokens p breakpoints cap name) ∧
    ∀ d, (p.run breakpoints cap).fault = some d → d.message = s!"Undefined variable '{name}'" →
      Explained tokens shown p name d.start := by
  refine ⟨run?_count (genuine_of_ofTokens h) breakpoints cap, ?_, ?_⟩
  · exact fun hreports => neverBound_of_reports hscan h hreports breakpoints cap
  · exact fun d hfault hmessage => explained_of_undefined hscan h shown hfault hmessage

/-- With at most two rounds the loop of the sample is cut off, and the statement
after it faults. -/
theorem run_undeclared_sample :
    Lint.Reports Sample.warnedTokens Sample.warnedProgram
      "Variable 'x' is used before declaration." ∧
    (Sample.warnedProgram.run .empty ⟨2, by decide⟩).fault =
      some (.pointing .error .runtime "Undefined variable 'x'" ⟨6, 1⟩) ∧
    NeverBound Sample.warnedTokens Sample.warnedProgram .empty ⟨2, by decide⟩ "x" ∧
    Explained Sample.warnedTokens [] Sample.warnedProgram "x" ⟨6, 1⟩ := by
  have hreports : Lint.Reports Sample.warnedTokens Sample.warnedProgram
      "Variable 'x' is used before declaration." := Lint.reports_of_any (by decide +kernel)
  have hfault : (Sample.warnedProgram.run .empty ⟨2, by decide⟩).fault =
      some (.pointing .error .runtime "Undefined variable 'x'" ⟨6, 1⟩) := by decide +kernel
  have hrun := run_undeclared Sample.scan_warned Sample.ofTokens_warned
  refine ⟨hreports, hfault, (hrun Sample.warnedTokens "x" .empty ⟨2, by decide⟩).2.1 hreports, ?_⟩
  exact (hrun [] "x" .empty ⟨2, by decide⟩).2.2 _ hfault rfl

end Program

end Crafter
