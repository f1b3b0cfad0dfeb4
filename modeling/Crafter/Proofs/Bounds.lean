import Crafter.Proofs.Kept

/-! Runs of one program under different bounds: with fewer breakpoints and a
larger cap a run goes the same way, until the run under the tighter bounds
pauses or has a loop cut off. -/
namespace Crafter

/-- What holds a run back. -/
structure Bounds where
  breakpoints : Breakpoints
  cap : Cap

/-- The second bounds have no breakpoint that the first do not have, and a cap
that is at least as large. -/
structure Bounds.Looser (tight loose : Bounds) : Prop where
  breakpoints : ∀ line ∈ loose.breakpoints, line ∈ tight.breakpoints
  cap : tight.cap.count ≤ loose.cap.count

/-- The machine with other bounds. -/
def Machine.under (m : Machine) (bounds : Bounds) : Machine :=
  { m with breakpoints := bounds.breakpoints, cap := bounds.cap }

/-- How a step under loose bounds compares to one under tight bounds. It is the
same, unless the tight one pauses where the loose one goes on, or a loop was cut
off that may go on under a larger cap. -/
inductive Step.Follows (tight loose : Bounds) : Step → Step → Prop where
  | same (halt : Option Halt) (m : Machine) :
      Follows tight loose (halt, m.under tight) (halt, m.under loose)
  | paused {loc : Position} {trace : List Frame} {m : Machine} {step : Step}
      (free : loc.line ∉ loose.breakpoints) (grows : m.Grows step.2) :
      Follows tight loose (some (.pause loc trace), m) step
  | limited {halt : Option Halt} {m : Machine} {step : Step}
      (larger : tight.cap.count < loose.cap.count) (reached : m.limitReached = true) :
      Follows tight loose (halt, m) step

namespace Step

variable {tight loose : Bounds}

theorem follows_andThen {step step' : Step} {next next' : Machine → Step}
    (h : step.Follows tight loose step')
    (hnext : ∀ m : Machine, (next (m.under tight)).Follows tight loose (next' (m.under loose)))
    (grows : ∀ m : Machine, m.Grows (next m).2) (grows' : ∀ m : Machine, m.Grows (next' m).2) :
    (step.andThen next).Follows tight loose (step'.andThen next') := by
  cases h with
  | same halt m =>
    cases halt with
    | some halt => exact .same (some halt) m
    | none => exact hnext m
  | paused free hm =>
    have hstep : step'.2.Grows (step'.andThen next').2 :=
      Machine.grows_law.of_andThen (Machine.Grows.refl step'.2) grows'
    exact .paused free (hm.trans hstep)
  | @limited halt m _ larger reached =>
    cases halt with
    | some halt => exact .limited larger reached
    | none => exact .limited larger ((grows m).limitReached reached)

theorem follows_leave {step step' : Step} (h : step.Follows tight loose step') :
    step.leave.Follows tight loose step'.leave := by
  cases h with
  | same halt m => exact .same halt m.leave
  | paused free grows => exact .paused free ⟨grows.output, grows.notices, grows.limitReached⟩
  | limited larger reached => exact .limited larger reached

theorem follows_within (h : tight.Looser loose) {run run' : Machine → Step}
    (hrun : ∀ m : Machine, (run (m.under tight)).Follows tight loose (run' (m.under loose)))
    {m : Machine} {frame : Frame}
    (grows : (m.under loose).Grows ((m.under loose).within frame run').2) :
    ((m.under tight).within frame run).Follows tight loose
      ((m.under loose).within frame run') := by
  by_cases htight : frame.loc.line ∈ (m.under tight).breakpoints
  · rw [Machine.within_of_mem htight]
    by_cases hloose : frame.loc.line ∈ (m.under loose).breakpoints
    · rw [Machine.within_of_mem hloose]
      exact .same _ m
    · exact .paused hloose ⟨grows.output, grows.notices, grows.limitReached⟩
  · have hloose : frame.loc.line ∉ (m.under loose).breakpoints :=
      fun hmem => htight (h.breakpoints _ hmem)
    rw [Machine.within_of_not_mem htight, Machine.within_of_not_mem hloose]
    exact follows_leave (hrun (m.enter frame))

theorem follows_evaluate {α : Type} {m : Machine} {next next' : α → Step}
    (h : ∀ x, (next x).Follows tight loose (next' x)) (result : Except Fault α) (loc : Position) :
    ((m.under tight).evaluate result loc next).Follows tight loose
      ((m.under loose).evaluate result loc next') := by
  cases result with
  | error cause => exact .same _ m
  | ok x => exact h x

/-- The notice about a loop that is cut off tells the cap, so that it is the same
only if the caps are. -/
theorem follows_cutOff (h : tight.cap.count = loose.cap.count) (m : Machine) (loc : Position) :
    Follows tight loose (none, (m.under tight).cutOff loc) (none, (m.under loose).cutOff loc) := by
  have hnotice : Machine.limitNotice tight.cap loc = Machine.limitNotice loose.cap loc := by
    unfold Machine.limitNotice
    rw [h]
  have hcut : (m.under loose).cutOff loc = ((m.under tight).cutOff loc).under loose := by
    unfold Machine.cutOff Machine.under
    rw [hnotice]
  rw [hcut]
  exact .same none ((m.under tight).cutOff loc)

/-- With more rounds to go than under the tight bounds, a loop does the same as
long as it is not cut off there. -/
theorem follows_repeatWhile (h : tight.Looser loose) {test : Machine → Except Fault Bool}
    (htest : ∀ (m : Machine) (bounds : Bounds), test (m.under bounds) = test m)
    {body body' : Machine → Step}
    (hbody : ∀ m : Machine, (body (m.under tight)).Follows tight loose (body' (m.under loose)))
    (grows : ∀ m : Machine, m.Grows (body m).2) (grows' : ∀ m : Machine, m.Grows (body' m).2)
    (loc : Position) {rounds rounds' : Nat} (hle : rounds ≤ rounds')
    (heq : tight.cap.count = loose.cap.count → rounds = rounds') (m : Machine) :
    (Machine.repeatWhile test body loc rounds (m.under tight)).Follows tight loose
      (Machine.repeatWhile test body' loc rounds' (m.under loose)) := by
  have cut (m : Machine) (step : Step) (hne : tight.cap.count ≠ loose.cap.count) :
      Follows tight loose (none, (m.under tight).cutOff loc) step :=
    .limited (Nat.lt_of_le_of_ne h.cap hne) rfl
  induction rounds generalizing rounds' m with
  | zero =>
    -- the test after the last tight round is the same one that the loose loop makes,
    -- after its last round too or before another one
    cases rounds' with
    | zero =>
      unfold Machine.repeatWhile
      rw [htest, htest]
      apply follows_evaluate
      intro holds
      cases holds
      · exact .same none m
      · by_cases hcap : tight.cap.count = loose.cap.count
        · exact follows_cutOff hcap m loc
        · exact cut m _ hcap
    | succ rounds' =>
      have hcap : tight.cap.count ≠ loose.cap.count :=
        fun hcap => Nat.zero_ne_add_one rounds' (heq hcap)
      rw [Machine.repeatWhile_succ]
      unfold Machine.repeatWhile
      rw [htest, htest]
      apply follows_evaluate
      intro holds
      cases holds
      · exact .same none m
      · exact cut m _ hcap
  | succ rounds ih =>
    cases rounds' with
    | zero => omega
    | succ rounds' =>
      rw [Machine.repeatWhile_succ, Machine.repeatWhile_succ, htest, htest]
      apply follows_evaluate
      intro holds
      cases holds
      · exact .same none m
      · have hrest := ih (Nat.le_of_succ_le_succ hle) fun hcap => Nat.succ.inj (heq hcap)
        refine follows_andThen (hbody m) hrest ?_ ?_
        · exact fun m => Machine.grows_law.of_repeatWhile test grows loc rounds m
        · exact fun m => Machine.grows_law.of_repeatWhile test grows' loc rounds' m

end Step

section

variable {tight loose : Bounds}

mutual

theorem Statement.exec_follows (h : tight.Looser loose) : ∀ (s : Statement) (m : Machine),
    (s.exec (m.under tight)).Follows tight loose (s.exec (m.under loose))
  | .declaration name value loc, m => by
    have grows := Statement.exec_grows (.declaration name value loc) (m.under loose)
    rw [Statement.exec] at grows ⊢
    rw [Statement.exec]
    refine Step.follows_within h (fun m => ?_) grows
    exact Step.follows_evaluate (fun x => .same none (m.bind name x)) _ loc
  | .printText contents loc, m => by
    have grows := Statement.exec_grows (.printText contents loc) (m.under loose)
    rw [Statement.exec] at grows ⊢
    rw [Statement.exec]
    exact Step.follows_within h (fun m => .same none (m.print contents)) grows
  | .printValue value loc, m => by
    have grows := Statement.exec_grows (.printValue value loc) (m.under loose)
    rw [Statement.exec] at grows ⊢
    rw [Statement.exec]
    refine Step.follows_within h (fun m => ?_) grows
    exact Step.follows_evaluate (fun x => .same none (m.print (Number.display x))) _ loc
  | .conditional test body alternative loc, m => by
    have grows := Statement.exec_grows (.conditional test body alternative loc) (m.under loose)
    rw [Statement.exec] at grows ⊢
    rw [Statement.exec]
    refine Step.follows_within h (fun m => ?_) grows
    apply Step.follows_evaluate
    intro holds
    cases holds
    · exact Program.exec_follows h alternative m
    · exact Program.exec_follows h body m
  | .loop test body loc, m => by
    have grows := Statement.exec_grows (.loop test body loc) (m.under loose)
    rw [Statement.exec] at grows ⊢
    rw [Statement.exec]
    refine Step.follows_within h (fun m => ?_) grows
    exact Step.follows_repeatWhile h (fun _ _ => rfl) (Program.exec_follows h body)
      (Program.exec_grows body) (Program.exec_grows body) loc h.cap id m
  | .foreign name body loc, m => by
    have grows := Statement.exec_grows (.foreign name body loc) (m.under loose)
    rw [Statement.exec] at grows ⊢
    rw [Statement.exec]
    exact Step.follows_within h (fun m => .same (some (.unsupported name)) m) grows
  | .absent part, m => by
    rw [Statement.exec, Statement.exec]
    exact .same (some (.unsupported part)) m

/-- A program under loose bounds follows the same program under tight bounds. -/
theorem Program.exec_follows (h : tight.Looser loose) : ∀ (p : List Statement) (m : Machine),
    (Program.exec p (m.under tight)).Follows tight loose (Program.exec p (m.under loose))
  | [], m => by
    rw [Program.exec_nil, Program.exec_nil]
    exact .same none m
  | s :: rest, m => by
    rw [Program.exec_cons, Program.exec_cons]
    exact Step.follows_andThen (Statement.exec_follows h s m) (Program.exec_follows h rest)
      (Program.exec_grows rest) (Program.exec_grows rest)

end

end

end Crafter
