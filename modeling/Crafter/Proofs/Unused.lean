import Crafter.Proofs.Legible
import Crafter.Proofs.Warnings

/-! Variables that no statement uses are never read. Two runs of a program that
differ in the value of such a variable only, do the same at every step and still
differ in nothing else at the end. -/
namespace Crafter

/-- All variables but the one of the given name have the same values. -/
def Environment.AgreesOff (name : String) (env env' : Environment) : Prop :=
  ∀ other ≠ name, env.get? other = env'.get? other

/-- The machines are the same, except that the variable of the given name may have
different values, or a value in one of them only. -/
structure Machine.AgreesOff (name : String) (m m' : Machine) : Prop where
  environment : m.environment.AgreesOff name m'.environment
  output : m.output = m'.output
  stack : m.stack = m'.stack
  breakpoints : m.breakpoints = m'.breakpoints
  cap : m.cap = m'.cap
  limitReached : m.limitReached = m'.limitReached
  notices : m.notices = m'.notices
  entered : m.entered = m'.entered

/-- The steps halt alike, and the machines after them agree. -/
structure Step.AgreesOff (name : String) (step step' : Step) : Prop where
  halt : step.1 = step'.1
  after : step.2.AgreesOff name step'.2

/-- The statement's own expression or condition comes out the same, whatever the
value of the variable of the given name. -/
def Statement.Ignores (name : String) : Statement → Prop
  | .declaration _ value _ | .printValue value _ =>
    ∀ env env' : Environment, env.AgreesOff name env' → env.eval value = env'.eval value
  | .conditional test _ _ _ | .loop test _ _ =>
    ∀ env env' : Environment, env.AgreesOff name env' → env.test test = env'.test test
  | .printText .. | .foreign .. | .absent _ => True

theorem Statement.ignores_of_reads {s : Statement} {names : List String} (h : s.ReadsOnly names)
    {name : String} (hname : name ∉ names) : s.Ignores name := by
  have hother {env env' : Environment} (hagrees : env.AgreesOff name env') :
      ∀ other ∈ names, env.get? other = env'.get? other := by
    intro other hmem
    apply hagrees other
    rintro rfl
    exact hname hmem
  cases s with
  | declaration | printValue | conditional | loop =>
    exact fun env env' hagrees => h.congr env env' (hother hagrees)
  | printText | foreign | absent => trivial

namespace Machine

variable {name : String} {m m' : Machine}

theorem agreesOff_enter (h : m.AgreesOff name m') (frame : Frame) :
    (m.enter frame).AgreesOff name (m'.enter frame) :=
  { h with
    stack := congrArg (frame :: ·) h.stack
    entered := congrArg (·.push frame) h.entered }

theorem agreesOff_leave (h : m.AgreesOff name m') : m.leave.AgreesOff name m'.leave :=
  { h with stack := congrArg List.tail h.stack }

theorem agreesOff_bind (h : m.AgreesOff name m') (declared : String) (x : Float) :
    (m.bind declared x).AgreesOff name (m'.bind declared x) := by
  refine { h with environment := ?_ }
  intro other hother
  have hget := h.environment other hother
  change (m.environment.insert declared x).get? other =
    (m'.environment.insert declared x).get? other
  rw [Environment.get?_insert, Environment.get?_insert, hget]

theorem agreesOff_print (h : m.AgreesOff name m') (line : String) :
    (m.print line).AgreesOff name (m'.print line) :=
  { h with output := congrArg (·.push line) h.output }

theorem agreesOff_cutOff (h : m.AgreesOff name m') (loc : Position) :
    (m.cutOff loc).AgreesOff name (m'.cutOff loc) := by
  refine { h with limitReached := rfl, notices := ?_ }
  change m.notices.push (limitNotice m.cap loc) = m'.notices.push (limitNotice m'.cap loc)
  rw [h.notices, h.cap]

theorem agreesOff_trace (h : m.AgreesOff name m') : m.trace = m'.trace :=
  congrArg List.reverse h.stack

end Machine

namespace Step

variable {name : String} {m m' : Machine}

theorem agreesOff_andThen {step step' : Step} {next next' : Machine → Step}
    (h : step.AgreesOff name step')
    (hnext : ∀ m m' : Machine, m.AgreesOff name m' → (next m).AgreesOff name (next' m')) :
    (step.andThen next).AgreesOff name (step'.andThen next') := by
  obtain ⟨halt, after⟩ := step
  obtain ⟨halt', after'⟩ := step'
  obtain ⟨rfl, hafter⟩ := h
  cases halt with
  | some halt => exact ⟨rfl, hafter⟩
  | none => exact hnext after after' hafter

theorem agreesOff_within {run run' : Machine → Step}
    (hrun : ∀ m m' : Machine, m.AgreesOff name m' → (run m).AgreesOff name (run' m'))
    (h : m.AgreesOff name m') (frame : Frame) :
    (m.within frame run).AgreesOff name (m'.within frame run') := by
  by_cases hline : frame.loc.line ∈ m.breakpoints
  · have hline' : frame.loc.line ∈ m'.breakpoints := h.breakpoints ▸ hline
    rw [Machine.within_of_mem hline, Machine.within_of_mem hline', Machine.agreesOff_trace h]
    exact ⟨rfl, h⟩
  · have hline' : frame.loc.line ∉ m'.breakpoints := h.breakpoints ▸ hline
    rw [Machine.within_of_not_mem hline, Machine.within_of_not_mem hline']
    obtain ⟨hhalt, hafter⟩ := hrun _ _ (Machine.agreesOff_enter h frame)
    exact ⟨hhalt, Machine.agreesOff_leave hafter⟩

theorem agreesOff_evaluate {α : Type} {result result' : Except Fault α} {next next' : α → Step}
    (h : m.AgreesOff name m') (hresult : result = result')
    (hnext : ∀ x, (next x).AgreesOff name (next' x)) (loc : Position) :
    (m.evaluate result loc next).AgreesOff name (m'.evaluate result' loc next') := by
  subst hresult
  cases result with
  | error cause =>
    have hhalt : some (Halt.fault cause loc m.trace) = some (.fault cause loc m'.trace) := by
      rw [Machine.agreesOff_trace h]
    exact ⟨hhalt, h⟩
  | ok x => exact hnext x

theorem agreesOff_repeatWhile {test : Machine → Except Fault Bool} {body : Machine → Step}
    (htest : ∀ m m' : Machine, m.AgreesOff name m' → test m = test m')
    (hbody : ∀ m m' : Machine, m.AgreesOff name m' → (body m).AgreesOff name (body m'))
    (loc : Position) (rounds : Nat) (h : m.AgreesOff name m') :
    (Machine.repeatWhile test body loc rounds m).AgreesOff name
      (Machine.repeatWhile test body loc rounds m') := by
  induction rounds generalizing m m' with
  | zero =>
    refine agreesOff_evaluate h (htest m m' h) (fun holds => ?_) loc
    cases holds
    · exact ⟨rfl, h⟩
    · exact ⟨rfl, Machine.agreesOff_cutOff h loc⟩
  | succ rounds ih =>
    rw [Machine.repeatWhile_succ, Machine.repeatWhile_succ]
    refine agreesOff_evaluate h (htest m m' h) (fun holds => ?_) loc
    cases holds
    · exact ⟨rfl, h⟩
    · exact agreesOff_andThen (hbody m m' h) fun n n' => ih

end Step

section

variable {name : String} {scope : List Statement}

mutual

theorem Statement.exec_agreesOff (hscope : ∀ s ∈ scope, s.Ignores name) :
    ∀ s : Statement, s.withNested ⊆ scope → ∀ m m' : Machine, m.AgreesOff name m' →
      (s.exec m).AgreesOff name (s.exec m')
  | .declaration declared value loc, hs, m, m', h => by
    have hvalue := hscope _ (hs (Program.self_mem_withNested (.declaration declared value loc)))
    rw [Statement.exec, Statement.exec]
    refine Step.agreesOff_within (fun n n' hn => ?_) h _
    refine Step.agreesOff_evaluate hn (hvalue _ _ hn.environment) (fun x => ?_) loc
    exact ⟨rfl, Machine.agreesOff_bind hn declared x⟩
  | .printText contents loc, _, m, m', h => by
    rw [Statement.exec, Statement.exec]
    refine Step.agreesOff_within (fun n n' hn => ?_) h _
    exact ⟨rfl, Machine.agreesOff_print hn contents⟩
  | .printValue value loc, hs, m, m', h => by
    have hvalue := hscope _ (hs (Program.self_mem_withNested (.printValue value loc)))
    rw [Statement.exec, Statement.exec]
    refine Step.agreesOff_within (fun n n' hn => ?_) h _
    refine Step.agreesOff_evaluate hn (hvalue _ _ hn.environment) (fun x => ?_) loc
    exact ⟨rfl, Machine.agreesOff_print hn (Number.display x)⟩
  | .conditional test body alternative loc, hs, m, m', h => by
    have hself := Program.self_mem_withNested (.conditional test body alternative loc)
    have htest := hscope _ (hs hself)
    rw [Statement.withNested] at hs
    obtain ⟨hbody, halternative⟩ := List.append_subset.mp (List.cons_subset.mp hs).2
    rw [Statement.exec, Statement.exec]
    refine Step.agreesOff_within (fun n n' hn => ?_) h _
    refine Step.agreesOff_evaluate hn (htest _ _ hn.environment) (fun holds => ?_) loc
    cases holds
    · exact Program.exec_agreesOff hscope alternative halternative n n' hn
    · exact Program.exec_agreesOff hscope body hbody n n' hn
  | .loop test body loc, hs, m, m', h => by
    have htest := hscope _ (hs (Program.self_mem_withNested (.loop test body loc)))
    rw [Statement.withNested] at hs
    rw [Statement.exec, Statement.exec]
    refine Step.agreesOff_within (fun n n' hn => ?_) h _
    rw [hn.cap]
    exact Step.agreesOff_repeatWhile (fun k k' hk => htest _ _ hk.environment)
      (Program.exec_agreesOff hscope body (List.cons_subset.mp hs).2) loc _ hn
  | .foreign form body loc, _, m, m', h => by
    rw [Statement.exec, Statement.exec]
    refine Step.agreesOff_within (fun n n' hn => ?_) h _
    exact ⟨rfl, hn⟩
  | .absent part, _, m, m', h => by
    rw [Statement.exec, Statement.exec]
    exact ⟨rfl, h⟩

/-- A program whose statements all ignore a variable does the same with and
without it. -/
theorem Program.exec_agreesOff (hscope : ∀ s ∈ scope, s.Ignores name) :
    ∀ p : List Statement, Program.statements p ⊆ scope → ∀ m m' : Machine, m.AgreesOff name m' →
      (Program.exec p m).AgreesOff name (Program.exec p m')
  | [], _, m, m', h => by
    rw [Program.exec_nil, Program.exec_nil]
    exact ⟨rfl, h⟩
  | s :: rest, hp, m, m', h => by
    rw [Program.statements] at hp
    obtain ⟨hs, hrest⟩ := List.append_subset.mp hp
    rw [Program.exec_cons, Program.exec_cons]
    exact Step.agreesOff_andThen (Statement.exec_agreesOff hscope s hs m m' h)
      (Program.exec_agreesOff hscope rest hrest)

end

end

namespace Program

/-- Variables that lint reports as unused are never read: with any two values of
such a variable, or none, the program halts alike and leaves the same behind,
the variable itself left aside. -/
theorem exec_unused {file source : String} {tokens : List Token} {p : Program}
    (hscan : Source.scan file source = .ok tokens) (h : ofTokens tokens = .ok p)
    {shown : List Token} {name : String}
    (hunused : Lint.Reports shown p s!"Variable '{name}' is declared but never used.")
    {m m' : Machine} (hagrees : m.AgreesOff name m') :
    (exec p m).AgreesOff name (exec p m') := by
  obtain ⟨_, hunused⟩ := (Lint.reports_unused_iff shown p name).mp hunused
  have hscope : ∀ s ∈ statements p, s.Ignores name := by
    intro s hs
    have hnot : name ∉ Lint.usedNames s := fun hused => hunused ⟨s, hs, hused⟩
    exact Statement.ignores_of_reads ((legible_of_scan hscan h).reads s hs) hnot
  exact exec_agreesOff hscope p (List.Subset.refl _) m m' hagrees

end Program

/-- Before a run, with a value for the variable that the sample does not use. -/
def Sample.boundMachine : Machine :=
  (Machine.start .empty .standard).bind "a" (Number.ofNat 7)

theorem Sample.boundMachine_agreesOff :
    Sample.boundMachine.AgreesOff "a" (.start .empty .standard) := by
  refine ⟨?_, rfl, rfl, rfl, rfl, rfl, rfl, rfl⟩
  intro other hother
  exact (Environment.get?_insert _ _ _ _).trans (if_neg hother.symm)

theorem Program.exec_unused_sample :
    Lint.Reports Sample.warnedTokens Sample.warnedProgram
      "Variable 'a' is declared but never used." ∧
    Sample.boundMachine.AgreesOff "a" (.start .empty .standard) ∧
    (exec Sample.warnedProgram Sample.boundMachine).AgreesOff "a"
      (exec Sample.warnedProgram (.start .empty .standard)) := by
  have hreports : Lint.Reports Sample.warnedTokens Sample.warnedProgram
      "Variable 'a' is declared but never used." := Lint.reports_of_any (by decide +kernel)
  exact ⟨hreports, Sample.boundMachine_agreesOff,
    exec_unused Sample.scan_warned Sample.ofTokens_warned hreports Sample.boundMachine_agreesOff⟩

end Crafter
