import Crafter.Proofs.Bounds
import Crafter.Proofs.Located
import Crafter.Proofs.Pausing

/-! Outcomes of one program under different breakpoints and caps. -/
namespace Crafter

/-- How the outcome `o'` of a run under loose bounds compares to the outcome `o`
of the run under tight bounds. -/
inductive Outcome.Follows (tight loose : Bounds) (o o' : Outcome) : Prop where
  | same (equal : o = o')
  | paused {loc : Position} (status : o.status = .paused) (breakpoint : o.breakpoint = some loc)
      (free : loc.line ∉ loose.breakpoints) (lines : o.lines <+: o'.lines)
      (notices : o.notices <+: o'.notices)
  | limited (larger : tight.cap.count < loose.cap.count) (reached : o.limitReached = true)

/-- How the outcome `o` of a run compares to the outcome `o'` of one that has
only some of the breakpoints `more`. -/
structure Outcome.PausesEarlier (more : Breakpoints) (o o' : Outcome) : Prop where
  lines : o.lines <+: o'.lines
  notices : o.notices <+: o'.notices
  equal : o.status ≠ .paused → o = o'
  breakpoint : o.status = .paused → ∃ loc, o.breakpoint = some loc ∧ loc.line ∈ more
  trace : ∀ f ∈ o.trace, f.loc.line ∉ more
  entered : ∀ f ∈ o.entered, f.loc.line ∉ more

/-- The lines with breakpoints in both sets. -/
def Breakpoints.inter (b b' : Breakpoints) : Breakpoints :=
  ⟨b.lines.filter (· ∈ b'), b.ascending.filter _⟩

theorem Breakpoints.mem_inter (b b' : Breakpoints) (line : Int) :
    line ∈ b.inter b' ↔ line ∈ b ∧ line ∈ b' := by
  change line ∈ b.lines.filter (· ∈ b') ↔ line ∈ b.lines ∧ line ∈ b'
  rw [List.mem_filter, decide_eq_true_iff]

namespace Program

theorem run_follows {tight loose : Bounds} (h : tight.Looser loose) (p : Program) :
    (p.run tight.breakpoints tight.cap).Follows tight loose
      (p.run loose.breakpoints loose.cap) := by
  have hexec := exec_follows h p (.start tight.breakpoints tight.cap)
  change (exec p (.start tight.breakpoints tight.cap)).Follows tight loose
    (exec p (.start loose.breakpoints loose.cap)) at hexec
  unfold run
  generalize exec p (.start tight.breakpoints tight.cap) = step at hexec
  generalize exec p (.start loose.breakpoints loose.cap) = step' at hexec
  cases hexec with
  | same halt m => exact .same rfl
  | paused free grows => exact .paused rfl rfl free grows.output grows.notices
  | limited larger reached => exact .limited larger reached

/-- With a larger cap a run has the same outcome, unless it had a loop cut off. -/
theorem run_larger_cap {tokens : List Token} {p : Program} (h : ofTokens tokens = .ok p)
    (breakpoints : Breakpoints) {cap larger : Cap} (hle : cap.count ≤ larger.count) :
    p.run? breakpoints cap.count = .ok (p.run breakpoints cap) ∧
      ((p.run breakpoints cap).limitReached = false →
        p.run? breakpoints larger.count = .ok (p.run breakpoints cap)) := by
  have hgenuine := genuine_of_ofTokens h
  refine ⟨run?_count hgenuine breakpoints cap, ?_⟩
  intro hlimit
  have hlooser : Bounds.Looser ⟨breakpoints, cap⟩ ⟨breakpoints, larger⟩ := ⟨fun _ => id, hle⟩
  have hrespects := run_respects p breakpoints cap
  rw [run?_count hgenuine breakpoints larger]
  cases run_follows hlooser p with
  | same equal => exact congrArg Except.ok equal.symm
  | paused status breakpoint free =>
    exact absurd (hrespects.breakpoint _ breakpoint) free
  | limited larger reached => cases hlimit.symm.trans reached

theorem run_larger_cap_sample :
    ofTokens Sample.tokens = .ok Sample.program ∧ Sample.cap.count ≤ Cap.standard.count ∧
    (Sample.program.run .empty Sample.cap).limitReached = false ∧
    Sample.program.run? .empty Cap.standard.count =
      .ok (Sample.program.run .empty Sample.cap) :=
  have hle : Sample.cap.count ≤ Cap.standard.count := by decide
  have hlimit : (Sample.program.run .empty Sample.cap).limitReached = false := by decide +kernel
  ⟨Sample.ofTokens_eq, hle, hlimit, (run_larger_cap Sample.ofTokens_eq .empty hle).2 hlimit⟩

theorem run_pausesEarlier {fewer more : Breakpoints} (h : ∀ line ∈ fewer, line ∈ more)
    (p : Program) (cap : Cap) : (p.run more cap).PausesEarlier more (p.run fewer cap) := by
  have hlooser : Bounds.Looser ⟨more, cap⟩ ⟨fewer, cap⟩ := ⟨h, Nat.le_refl _⟩
  have hrespects := run_respects p more cap
  have hbreakpoint : (p.run more cap).status = .paused →
      ∃ loc, (p.run more cap).breakpoint = some loc ∧ loc.line ∈ more := by
    intro hstatus
    have hsome := (Outcome.isSome_breakpoint_iff _ _).mpr hstatus
    obtain ⟨loc, hloc⟩ := Option.isSome_iff_exists.mp hsome
    exact ⟨loc, hloc, hrespects.breakpoint loc hloc⟩
  cases run_follows hlooser p with
  | same equal =>
    rw [← show p.run more cap = p.run fewer cap from equal]
    exact ⟨List.prefix_rfl, List.prefix_rfl, fun _ => rfl, hbreakpoint, hrespects.trace,
      hrespects.entered⟩
  | paused status breakpoint free lines notices =>
    exact ⟨lines, notices, fun hstatus => absurd status hstatus, hbreakpoint, hrespects.trace,
      hrespects.entered⟩
  | limited larger reached => exact absurd larger (Nat.lt_irrefl cap.count)

/-- Where a run pauses, a statement of the program starts. -/
theorem exists_statement_of_breakpoint {p : Program} (hp : Genuine p) (b : Breakpoints)
    (cap : Cap) {loc : Position} (hloc : (p.run b cap).breakpoint = some loc) :
    ∃ s ∈ statements p, s.loc = loc := by
  have hstatus : (p.run b cap).status = .paused :=
    (Outcome.isSome_breakpoint_iff _ _).mp (Option.isSome_iff_exists.mpr ⟨loc, hloc⟩)
  have htraced := Outcome.traced_ofStep (exec_located p (.start b cap))
    (exec_supported p hp (.start b cap))
  obtain ⟨way, s, hpath, _, hs⟩ := htraced.pause hstatus
  exact ⟨s, mem_statements_of_path hpath, Option.some.inj (hs.symm.trans hloc)⟩

/-- Breakpoints on lines where no statement starts make no difference. -/
theorem run_eq_of_inert {p : Program} (hp : Genuine p) {fewer more : Breakpoints}
    (hsub : ∀ line ∈ fewer, line ∈ more)
    (hinert : ∀ s ∈ statements p, s.loc.line ∈ more → s.loc.line ∈ fewer) (cap : Cap) :
    p.run more cap = p.run fewer cap := by
  have hlooser : Bounds.Looser ⟨more, cap⟩ ⟨fewer, cap⟩ := ⟨hsub, Nat.le_refl _⟩
  cases run_follows hlooser p with
  | same equal => exact equal
  | paused status breakpoint free =>
    obtain ⟨s, hs, rfl⟩ := exists_statement_of_breakpoint hp more cap breakpoint
    have hline := (run_respects p more cap).breakpoint s.loc breakpoint
    exact absurd (hinert s hs hline) free
  | limited larger reached => exact absurd larger (Nat.lt_irrefl cap.count)

/-- More breakpoints make a run stop earlier and change nothing else, and only
those on lines where statements start make a difference. -/
theorem run_breakpoints {tokens : List Token} {p : Program} (h : ofTokens tokens = .ok p)
    (cap : Cap) : (∀ b, p.run? b cap.count = .ok (p.run b cap)) ∧
    (∀ fewer more : Breakpoints, (∀ line ∈ fewer, line ∈ more) →
      (p.run more cap).PausesEarlier more (p.run fewer cap)) ∧
    ∀ b b' : Breakpoints, (∀ s ∈ statements p, s.loc.line ∈ b ↔ s.loc.line ∈ b') →
      p.run b cap = p.run b' cap := by
  have hgenuine := genuine_of_ofTokens h
  refine ⟨fun b => run?_count hgenuine b cap, ?_, ?_⟩
  · intro fewer more hsub
    exact run_pausesEarlier hsub p cap
  · intro b b' hsame
    -- neither set differs from what both have in common where statements start
    have hmem := Breakpoints.mem_inter b b'
    have hb : p.run b cap = p.run (b.inter b') cap := by
      apply run_eq_of_inert hgenuine fun line hline => ((hmem line).mp hline).1
      exact fun s hs hline => (hmem _).mpr ⟨hline, (hsame s hs).mp hline⟩
    have hb' : p.run b' cap = p.run (b.inter b') cap := by
      apply run_eq_of_inert hgenuine fun line hline => ((hmem line).mp hline).2
      exact fun s hs hline => (hmem _).mpr ⟨(hsame s hs).mpr hline, hline⟩
    exact hb.trans hb'.symm

/-- The run that pauses in the loop has printed less than the one that goes on. -/
theorem run_breakpoints_sample :
    ofTokens Sample.tokens = .ok Sample.program ∧
    (∀ line ∈ Breakpoints.ofList [7], line ∈ Breakpoints.ofList [4, 7]) ∧
    ((Sample.program.run (.ofList [4, 7]) Sample.cap).status = .paused ∧
      (Sample.program.run (.ofList [4, 7]) Sample.cap).lines = [] ∧
      (Sample.program.run (.ofList [7]) Sample.cap).lines = ["1", "2"]) ∧
    (Sample.program.run (.ofList [4, 7]) Sample.cap).PausesEarlier (.ofList [4, 7])
      (Sample.program.run (.ofList [7]) Sample.cap) ∧
    (∀ s ∈ statements Sample.program,
      s.loc.line ∈ Breakpoints.ofList [4, 5] ↔ s.loc.line ∈ Breakpoints.ofList [4, 8]) ∧
    Sample.program.run (.ofList [4, 5]) Sample.cap =
      Sample.program.run (.ofList [4, 8]) Sample.cap :=
  have hsub : ∀ line ∈ Breakpoints.ofList [7], line ∈ Breakpoints.ofList [4, 7] := by
    change ∀ line ∈ (Breakpoints.ofList [7]).lines, line ∈ Breakpoints.ofList [4, 7]
    decide
  have hlines : ∀ s ∈ statements Sample.program,
      s.loc.line ∈ Breakpoints.ofList [4, 5] ↔ s.loc.line ∈ Breakpoints.ofList [4, 8] := by
    decide +kernel
  have hruns := run_breakpoints Sample.ofTokens_eq Sample.cap
  ⟨Sample.ofTokens_eq, hsub, by decide +kernel, hruns.2.1 _ _ hsub, hlines, hruns.2.2 _ _ hlines⟩

end Program

end Crafter
