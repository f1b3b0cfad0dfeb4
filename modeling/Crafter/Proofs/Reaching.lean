import Crafter.Proofs.Kept
import Crafter.Proofs.Rounds

/-! The way that a run takes through a program. A block that is about to be
executed leads to what is left of it after its first statement, or to a block
inside that statement. Every statement that is begun is reached so, and a halt
that happens where a run has come to is the halt of the whole run. -/
namespace Crafter

namespace Program

/-- One step on the way of a run: if the first block is executed on the first
machine, then the second block is executed on the second one. -/
inductive Leads : List Statement → Machine → List Statement → Machine → Prop where
  | next {s : Statement} {rest : List Statement} {m after : Machine}
      (done : s.exec m = (none, after)) : Leads (s :: rest) m rest after
  | branch {test : Condition} {body alternative : List Statement} {loc : Position}
      {rest : List Statement} {m : Machine} {holds : Bool} (free : loc.line ∉ m.breakpoints)
      (decided : m.environment.test test = .ok holds) :
      Leads (.conditional test body alternative loc :: rest) m
        (if holds then body else alternative) (m.enter ⟨.conditional, loc⟩)
  | round {test : Condition} {body : List Statement} {loc : Position} {rest : List Statement}
      {m n : Machine} {k : Nat} (free : loc.line ∉ m.breakpoints) (few : k < m.cap.count)
      (rounds : Machine.Rounds (fun m => m.environment.test test) (exec body) k
        (m.enter ⟨.loop, loc⟩) n)
      (holds : n.environment.test test = .ok true) :
      Leads (.loop test body loc :: rest) m body n

/-- The way of a run, from the block that it begins with on. -/
inductive Reaches : List Statement → Machine → List Statement → Machine → Prop where
  | here (p : List Statement) (m : Machine) : Reaches p m p m
  | further {p q r : List Statement} {m n k : Machine} (first : Leads p m q n)
      (rest : Reaches q n r k) : Reaches p m r k

variable {p q : List Statement} {m n : Machine}

theorem statements_subset_of_leads (h : Leads p m q n) : statements q ⊆ statements p := by
  cases h with
  | next =>
    rw [statements]
    exact List.subset_append_right _ _
  | @branch test body alternative loc rest _ holds =>
    rw [statements, Statement.withNested]
    cases holds <;> grind
  | round =>
    rw [statements, Statement.withNested]
    grind

theorem statements_subset_of_reaches (h : Reaches p m q n) : statements q ⊆ statements p := by
  induction h with
  | here p m => exact List.Subset.refl _
  | further first _ ih => exact List.Subset.trans ih (statements_subset_of_leads first)

theorem get?_of_rounds {test : Machine → Except Fault Bool} {body : List Statement} {k : Nat}
    (h : Machine.Rounds test (exec body) k m n) {name : String} (hname : ¬ Declares body name) :
    n.environment.get? name = m.environment.get? name := by
  induction h with
  | zero => rfl
  | @succ _ m _ _ _ round _ ih =>
    have hround := exec_frame hname m
    rw [round] at hround
    exact ih.trans hround

/-- On its way a run gives no value to a name that the program does not declare. -/
theorem get?_of_leads (h : Leads p m q n) {name : String} (hname : ¬ Declares p name) :
    n.environment.get? name = m.environment.get? name := by
  have hscope : ∀ s ∈ statements p, Lint.declaredName? s ≠ some name :=
    fun s hs heq => hname ⟨s, hs, heq⟩
  cases h with
  | @next s rest _ after done =>
    rw [statements] at hscope
    have hframe := exec_statement_frame (fun t ht => hscope t (List.mem_append_left _ ht)) m
    rwa [done] at hframe
  | branch => rfl
  | @round test body loc rest _ _ k free few rounds holds =>
    have hbody : ¬ Declares q name := by
      rintro ⟨s, hs, hdeclares⟩
      rw [statements, Statement.withNested] at hscope
      exact hscope s (List.mem_append_left _ (List.mem_cons_of_mem _ hs)) hdeclares
    exact get?_of_rounds rounds hbody

theorem get?_of_reaches (h : Reaches p m q n) {name : String} (hname : ¬ Declares p name) :
    n.environment.get? name = m.environment.get? name := by
  induction h with
  | here => rfl
  | further first _ ih =>
    have hrest : ¬ Declares _ name := fun ⟨s, hs, hdeclares⟩ =>
      hname ⟨s, statements_subset_of_leads first hs, hdeclares⟩
    exact (ih hrest).trans (get?_of_leads first hname)

theorem exec_conditional {test : Condition} {body alternative : List Statement} {loc : Position}
    {m : Machine} {holds : Bool} (free : loc.line ∉ m.breakpoints)
    (decided : m.environment.test test = .ok holds) :
    (Statement.conditional test body alternative loc).exec m =
      (exec (if holds then body else alternative) (m.enter ⟨.conditional, loc⟩)).leave := by
  have hinside : (m.enter ⟨.conditional, loc⟩).environment.test test = .ok holds := decided
  rw [Statement.exec, Machine.within_of_not_mem free, hinside]
  cases holds <;> rfl

/-- A statement whose own expression or condition is at fault does nothing else. -/
theorem exec_of_fails {s : Statement} {m : Machine} {cause : Fault}
    (h : s.Fails m.environment cause) (free : s.loc.line ∉ m.breakpoints) :
    s.exec m = ((m.enter s.frame).fault cause s.loc).leave := by
  cases s with
  | declaration name value loc =>
    have hvalue : (m.enter ⟨.declaration, loc⟩).environment.eval value = .error cause := h
    rw [Statement.exec, Machine.within_of_not_mem free, hvalue]
    rfl
  | printValue value loc =>
    have hvalue : (m.enter ⟨.print, loc⟩).environment.eval value = .error cause := h
    rw [Statement.exec, Machine.within_of_not_mem free, hvalue]
    rfl
  | conditional test body alternative loc =>
    have htest : (m.enter ⟨.conditional, loc⟩).environment.test test = .error cause := h
    rw [Statement.exec, Machine.within_of_not_mem free, htest]
    rfl
  | loop test body loc =>
    have htest : (m.enter ⟨.loop, loc⟩).environment.test test = .error cause := h
    rw [exec_loop, Machine.within_of_not_mem free]
    unfold loop
    rw [Machine.repeatWhile_of_error htest]
    rfl
  | printText | foreign | absent => cases h

theorem halts_cons {s : Statement} {rest : List Statement} {m : Machine} {halt : Halt}
    (h : (s.exec m).1 = some halt) : (exec (s :: rest) m).1 = some halt := by
  rw [exec_cons, ← Prod.eta (s.exec m), h, Step.andThen_some]

/-- What halts inside a block halts the block. -/
theorem halts_of_leads (h : Leads p m q n) {halt : Halt} (hq : (exec q n).1 = some halt) :
    (exec p m).1 = some halt := by
  cases h with
  | next done => rw [exec_cons, done, Step.andThen_none, hq]
  | branch free decided =>
    apply halts_cons
    rw [exec_conditional free decided]
    exact hq
  | round free few rounds holds =>
    apply halts_cons
    rw [exec_loop, Machine.within_of_not_mem free]
    exact congrArg Prod.fst (Machine.repeatWhile_of_halt rounds few holds (Prod.ext hq rfl))

theorem halts_of_reaches (h : Reaches p m q n) {halt : Halt} (hq : (exec q n).1 = some halt) :
    (exec p m).1 = some halt := by
  induction h with
  | here => exact hq
  | further first _ ih => exact halts_of_leads first (ih hq)

/-- The run comes to a statement with the frame, and no breakpoint stops it there. -/
def Meets (p : List Statement) (m : Machine) (frame : Frame) : Prop :=
  ∃ s rest n, Reaches p m (s :: rest) n ∧ s.loc.line ∉ n.breakpoints ∧ s.frame = frame

theorem meets_of_leads (h : Leads p m q n) {frame : Frame} (hq : Meets q n frame) :
    Meets p m frame := by
  obtain ⟨s, rest, k, hreaches, hfree, hframe⟩ := hq
  exact ⟨s, rest, k, .further h hreaches, hfree, hframe⟩

/-- Every frame that the step has entered was there before, or is met. -/
def Accounts (p : List Statement) (m : Machine) (before : Machine) (step : Step) : Prop :=
  ∀ frame ∈ step.2.entered, frame ∈ before.entered ∨ Meets p m frame

theorem accounts_same {before : Machine} {halt : Option Halt} {after : Machine}
    (h : after.entered = before.entered) : Accounts p m before (halt, after) := by
  intro frame hframe
  rw [← h]
  exact Or.inl hframe

theorem accounts_andThen {before : Machine} {step : Step} {next : Machine → Step}
    (h : Accounts p m before step)
    (hnext : ∀ after, step = (none, after) → Accounts p m after (next after)) :
    Accounts p m before (step.andThen next) := by
  obtain ⟨halt, after⟩ := step
  cases halt with
  | some halt => exact h
  | none =>
    intro frame hframe
    rcases hnext after rfl frame hframe with hframe | hframe
    · exact h frame hframe
    · exact Or.inr hframe

theorem accounts_evaluate {α : Type} {before : Machine} {result : Except Fault α}
    {next : α → Step} (loc : Position)
    (h : ∀ x, result = .ok x → Accounts p m before (next x)) :
    Accounts p m before (before.evaluate result loc next) := by
  cases result with
  | error cause => exact accounts_same rfl
  | ok x => exact h x rfl

/-- What is entered inside the first statement of a block. -/
theorem accounts_within {s : Statement} {rest : List Statement} {run : Machine → Step}
    (h : s.loc.line ∉ m.breakpoints →
      Accounts (s :: rest) m (m.enter s.frame) (run (m.enter s.frame))) :
    Accounts (s :: rest) m m (m.within s.frame run) := by
  by_cases hline : s.frame.loc.line ∈ m.breakpoints
  · rw [Machine.within_of_mem hline]
    exact accounts_same rfl
  · rw [Machine.within_of_not_mem hline]
    intro frame hframe
    rcases h hline frame hframe with hframe | hframe
    · rcases Array.mem_push.mp hframe with hframe | rfl
      · exact Or.inl hframe
      · exact Or.inr ⟨s, rest, m, .here _ m, hline, rfl⟩
    · exact Or.inr hframe

theorem accounts_of_leads (h : Leads p m q n) {step : Step} (hq : Accounts q n n step) :
    Accounts p m n step := by
  intro frame hframe
  exact (hq frame hframe).imp_right (meets_of_leads h)

/-- What is entered in the rounds of a loop that are left after some. -/
theorem accounts_rounds {test : Condition} {body : List Statement} {loc : Position}
    {rest : List Statement} (hbody : ∀ n, Accounts body n n (exec body n))
    (free : loc.line ∉ m.breakpoints) {k left : Nat} (hcount : k + left = m.cap.count)
    (rounds : Machine.Rounds (fun m => m.environment.test test) (exec body) k
      (m.enter ⟨.loop, loc⟩) n) :
    Accounts (.loop test body loc :: rest) m n
      (Machine.repeatWhile (fun m => m.environment.test test) (exec body) loc left n) := by
  induction left generalizing k n with
  | zero =>
    apply accounts_evaluate
    intro holds _
    cases holds <;> exact accounts_same rfl
  | succ left ih =>
    rw [Machine.repeatWhile_succ]
    apply accounts_evaluate
    intro holds htest
    cases holds
    · exact accounts_same rfl
    · apply accounts_andThen
      · exact accounts_of_leads (.round free (by omega) rounds htest) (hbody n)
      · intro after hround
        exact ih (by omega) (rounds.snoc htest hround)

end Program

mutual

theorem Statement.exec_accounts : ∀ (s : Statement) (rest : List Statement) (m : Machine),
    Program.Accounts (s :: rest) m m (s.exec m)
  | .declaration name value loc, rest, m => by
    rw [Statement.exec]
    refine Program.accounts_within (s := .declaration name value loc) fun _ => ?_
    exact Program.accounts_evaluate loc fun x _ => Program.accounts_same rfl
  | .printText contents loc, rest, m => by
    rw [Statement.exec]
    exact Program.accounts_within (s := .printText contents loc) fun _ => Program.accounts_same rfl
  | .printValue value loc, rest, m => by
    rw [Statement.exec]
    refine Program.accounts_within (s := .printValue value loc) fun _ => ?_
    exact Program.accounts_evaluate loc fun x _ => Program.accounts_same rfl
  | .conditional test body alternative loc, rest, m => by
    rw [Statement.exec]
    refine Program.accounts_within (s := .conditional test body alternative loc) fun free => ?_
    refine Program.accounts_evaluate loc fun holds decided => ?_
    apply Program.accounts_of_leads (.branch free decided)
    cases holds
    · exact Program.exec_accounts alternative _
    · exact Program.exec_accounts body _
  | .loop test body loc, rest, m => by
    rw [Statement.exec]
    refine Program.accounts_within (s := .loop test body loc) fun free => ?_
    exact Program.accounts_rounds (Program.exec_accounts body) free (Nat.zero_add _) (.zero _)
  | .foreign name body loc, rest, m => by
    rw [Statement.exec]
    exact Program.accounts_within (s := .foreign name body loc) fun _ => Program.accounts_same rfl
  | .absent part, rest, m => by
    rw [Statement.exec]
    exact Program.accounts_same rfl

/-- Every statement that a run begins is on the way of the run. -/
theorem Program.exec_accounts : ∀ (p : List Statement) (m : Machine),
    Program.Accounts p m m (Program.exec p m)
  | [], m => by
    rw [Program.exec_nil]
    exact Program.accounts_same rfl
  | s :: rest, m => by
    rw [Program.exec_cons]
    apply Program.accounts_andThen (Statement.exec_accounts s rest m)
    intro after hdone
    exact Program.accounts_of_leads (.next hdone) (Program.exec_accounts rest after)

end

end Crafter
