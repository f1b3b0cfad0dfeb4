import Crafter.Proofs.Kept
import Crafter.Run.Outcome

/-! Lines with breakpoints are never reached: no statement that starts on such a
line is ever begun, and a run pauses nowhere else. -/
namespace Crafter

/-- No statement that is being executed, and none that was begun before, starts
on a line with a breakpoint. -/
structure Machine.Clear (m : Machine) : Prop where
  stack : ∀ f ∈ m.stack, f.loc.line ∉ m.breakpoints
  entered : ∀ f ∈ m.entered, f.loc.line ∉ m.breakpoints

/-- The halt keeps to the breakpoints: a pause is on one of their lines, and no
statement around it is. -/
structure Halt.Respects (breakpoints : Breakpoints) (halt : Halt) : Prop where
  pause : ∀ loc trace, halt = .pause loc trace → loc.line ∈ breakpoints
  trace : ∀ f ∈ halt.trace, f.loc.line ∉ breakpoints

namespace Machine

theorem clear_start (breakpoints : Breakpoints) (cap : Cap) : (start breakpoints cap).Clear :=
  ⟨nofun, fun f hf => absurd hf (Array.not_mem_empty f)⟩

theorem clear_enter {m : Machine} {frame : Frame} (h : m.Clear)
    (hline : frame.loc.line ∉ m.breakpoints) : (m.enter frame).Clear := by
  constructor
  · intro f hf
    rcases List.mem_cons.mp hf with rfl | hf
    · exact hline
    · exact h.stack f hf
  · intro f hf
    rcases Array.mem_push.mp hf with hf | rfl
    · exact h.entered f hf
    · exact hline

theorem clear_leave {m : Machine} (h : m.Clear) : m.leave.Clear :=
  ⟨fun f hf => h.stack f (List.mem_of_mem_tail hf), h.entered⟩

theorem clear_trace {m : Machine} (h : m.Clear) : ∀ f ∈ m.trace, f.loc.line ∉ m.breakpoints :=
  fun f hf => h.stack f (List.mem_reverse.mp hf)

theorem pausing_law : Step.Law fun m step => m.Clear → step.2.Clear ∧
    ∀ halt ∈ step.1, halt.Respects step.2.breakpoints where
  idle _ h := ⟨h, nofun⟩
  bind _ _ _ h := ⟨⟨h.stack, h.entered⟩, nofun⟩
  print _ _ h := ⟨⟨h.stack, h.entered⟩, nofun⟩
  cutOff _ _ h := ⟨⟨h.stack, h.entered⟩, nofun⟩
  fault m cause loc h := by
    refine ⟨h, ?_⟩
    rintro halt ⟨⟩
    exact ⟨nofun, clear_trace h⟩
  pause m loc hline h := by
    refine ⟨h, ?_⟩
    rintro halt ⟨⟩
    refine ⟨?_, clear_trace h⟩
    rintro loc trace ⟨⟩
    exact hline
  within m frame step hline hstep h := by
    obtain ⟨hafter, hhalt⟩ := hstep (clear_enter h hline)
    exact ⟨clear_leave hafter, hhalt⟩
  andThen m after step hfirst hnext h := hnext (hfirst h).1

theorem pausing_tolerant : Step.Tolerant fun m step => m.Clear → step.2.Clear ∧
    ∀ halt ∈ step.1, halt.Respects step.2.breakpoints := by
  intro m name h
  refine ⟨h, ?_⟩
  rintro halt ⟨⟩
  exact ⟨nofun, nofun⟩

end Machine

/-- What an outcome shows of the breakpoints that it was reached with. -/
structure Outcome.Respects (breakpoints : Breakpoints) (o : Outcome) : Prop where
  breakpoint : ∀ loc ∈ o.breakpoint, loc.line ∈ breakpoints
  trace : ∀ f ∈ o.trace, f.loc.line ∉ breakpoints
  entered : ∀ f ∈ o.entered, f.loc.line ∉ breakpoints

theorem Outcome.isSome_breakpoint_iff (halt : Option Halt) (m : Machine) :
    (Outcome.ofStep halt m).breakpoint.isSome = true ↔
      (Outcome.ofStep halt m).status = .paused := by
  cases halt with
  | none => exact ⟨nofun, nofun⟩
  | some halt =>
    cases halt with
    | pause loc trace => exact ⟨fun _ => rfl, fun _ => rfl⟩
    | fault cause loc trace => exact ⟨nofun, nofun⟩
    | unsupported name => exact ⟨nofun, nofun⟩

theorem Program.run_respects (p : Program) (breakpoints : Breakpoints) (cap : Cap) :
    (p.run breakpoints cap).Respects breakpoints := by
  obtain ⟨hclear, hhalt⟩ := Machine.pausing_law.of_program p (Or.inr Machine.pausing_tolerant)
    (.start breakpoints cap) (Machine.clear_start _ _)
  have hkeeps : (exec p (.start breakpoints cap)).2.breakpoints = breakpoints :=
    (exec_keeps p (.start breakpoints cap)).breakpoints
  have hentered : ∀ f ∈ (p.run breakpoints cap).entered, f.loc.line ∉ breakpoints := by
    intro f hf
    rw [← hkeeps]
    exact hclear.entered f (Array.mem_toList_iff.mp hf)
  unfold run at hentered ⊢
  cases hexec : exec p (.start breakpoints cap) with
  | mk halt m =>
    rw [hexec] at hhalt hkeeps hentered
    cases halt with
    | none => exact ⟨nofun, nofun, hentered⟩
    | some halt =>
      have hrespects : halt.Respects breakpoints := hkeeps ▸ hhalt halt rfl
      refine ⟨?_, hrespects.trace, hentered⟩
      cases halt with
      | pause loc trace =>
        rintro _ ⟨⟩
        exact hrespects.pause loc trace rfl
      | fault cause loc trace => exact nofun
      | unsupported name => exact nofun

end Crafter
