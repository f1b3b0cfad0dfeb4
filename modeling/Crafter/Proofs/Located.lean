import Crafter.Proofs.Genuine
import Crafter.Proofs.Kept
import Crafter.Program.Parse

/-! Where a run halts. The stack trace is a way down into the program, from a
statement of its body to the one at fault, or to the block that a breakpoint
stands in. -/
namespace Crafter

/-- The first statement is one of the block, each other one stands directly in a
block of the one before it. -/
def Program.Path : List Statement → List Statement → Prop
  | _, [] => True
  | block, s :: way => s ∈ block ∧ Program.Path s.inside way

namespace Program

/-- The way to a statement from the block that holds nothing else. -/
theorem path_singleton (s : Statement) : Path [s] ([] ++ [s]) :=
  ⟨List.mem_singleton.mpr rfl, trivial⟩

theorem path_mono {block larger : List Statement} (h : ∀ s ∈ block, s ∈ larger)
    {way : List Statement} (hway : Path block way) : Path larger way := by
  cases way with
  | nil => trivial
  | cons s way => exact ⟨h s hway.1, hway.2⟩

/-- A way through a program ends at a statement of the program. -/
theorem mem_statements_of_path {p way : List Statement} {s : Statement}
    (h : Path p (way ++ [s])) : s ∈ statements p := by
  induction way generalizing p with
  | nil => exact mem_statements_of_withNested h.1 (mem_withNested (Or.inl rfl))
  | cons t way ih => exact mem_statements_of_withNested h.1 (mem_withNested (Or.inr (ih h.2)))

end Program

/-- The halt of a block that is executed inside the statements `outer`: there is a
way from the block to the statement that it happened at. A fault happens in the
last statement of its trace, a pause before the statement is begun. -/
inductive Halt.Located (outer : List Frame) (block : List Statement) : Halt → Prop where
  | fault {way : List Statement} {s : Statement} (cause : Fault)
      (path : Program.Path block (way ++ [s])) :
      Located outer block (.fault cause s.loc (outer ++ (way ++ [s]).map Statement.frame))
  | pause {way : List Statement} {s : Statement} (path : Program.Path block (way ++ [s])) :
      Located outer block (.pause s.loc (outer ++ way.map Statement.frame))
  | unsupported (name : String) : Located outer block (.unsupported name)

namespace Halt

variable {outer : List Frame} {halt : Halt}

theorem located_mono {block larger : List Statement} (h : ∀ s ∈ block, s ∈ larger)
    (hhalt : halt.Located outer block) : halt.Located outer larger := by
  cases hhalt with
  | fault cause path => exact .fault cause (Program.path_mono h path)
  | pause path => exact .pause (Program.path_mono h path)
  | unsupported name => exact .unsupported name

/-- Seen from outside a statement, the way begins with that statement. -/
theorem located_of_inside {s : Statement} (h : halt.Located (outer ++ [s.frame]) s.inside) :
    halt.Located outer [s] := by
  have hmem : s ∈ [s] := List.mem_singleton.mpr rfl
  cases h with
  | @fault way t cause path =>
    have hpath : Program.Path [s] ((s :: way) ++ [t]) := ⟨hmem, path⟩
    have hhalt : Located outer [s] _ := .fault cause hpath
    rwa [List.cons_append, List.map_cons, List.append_cons] at hhalt
  | @pause way t path =>
    have hpath : Program.Path [s] ((s :: way) ++ [t]) := ⟨hmem, path⟩
    have hhalt : Located outer [s] _ := .pause hpath
    rwa [List.map_cons, List.append_cons] at hhalt
  | unsupported name => exact .unsupported name

end Halt

/-- The step has not halted, or its halt is located. -/
def Step.Located (outer : List Frame) (block : List Statement) (step : Step) : Prop :=
  ∀ halt ∈ step.1, halt.Located outer block

namespace Machine

variable {outer : List Frame} {block : List Statement} {s : Statement}

theorem located_none (m : Machine) : Step.Located outer block (none, m) := nofun

theorem located_andThen {step : Step} {next : Machine → Step} (h : step.Located outer block)
    (hnext : (next step.2).Located outer block) : (step.andThen next).Located outer block := by
  obtain ⟨halt, after⟩ := step
  cases halt with
  | some halt => exact h
  | none => exact hnext

theorem trace_enter (m : Machine) (frame : Frame) : (m.enter frame).trace = m.trace ++ [frame] :=
  List.reverse_cons

theorem located_within {run : Machine → Step} {m : Machine}
    (h : ∀ n : Machine, n.trace = m.trace ++ [s.frame] → (run n).Located m.trace [s]) :
    (m.within s.frame run).Located m.trace [s] := by
  by_cases hline : s.frame.loc.line ∈ m.breakpoints
  · rw [within_of_mem hline]
    intro halt hhalt
    cases hhalt
    have hpause : Halt.Located m.trace [s] _ := .pause (Program.path_singleton s)
    rwa [List.map_nil, List.append_nil] at hpause
  · rw [within_of_not_mem hline]
    exact h (m.enter s.frame) (trace_enter m s.frame)

/-- A fault of the statement itself is found when its own frame is the last one. -/
theorem located_evaluate {α : Type} {m : Machine} {next : α → Step}
    (hm : m.trace = outer ++ [s.frame]) (h : ∀ x, (next x).Located outer [s])
    (result : Except Fault α) : (m.evaluate result s.loc next).Located outer [s] := by
  cases result with
  | error cause =>
    intro halt hhalt
    cases hhalt
    rw [hm]
    exact .fault cause (Program.path_singleton s)
  | ok x => exact h x

theorem located_repeatWhile {body : Machine → Step} (hkeeps : ∀ m : Machine, m.Keeps (body m).2)
    (h : ∀ m : Machine, m.trace = outer ++ [s.frame] → (body m).Located outer [s])
    (test : Machine → Except Fault Bool) (rounds : Nat) {m : Machine}
    (hm : m.trace = outer ++ [s.frame]) :
    (repeatWhile test body s.loc rounds m).Located outer [s] := by
  induction rounds generalizing m with
  | zero => exact located_evaluate hm (fun holds => located_none _) (test m)
  | succ rounds ih =>
    rw [repeatWhile_succ]
    apply located_evaluate hm
    intro holds
    cases holds
    · exact located_none m
    · -- every round leaves the stack as it found it, so that the traces begin alike
      have hstack : (body m).2.trace = m.trace := congrArg List.reverse (hkeeps m).stack
      exact located_andThen (h m hm) (ih (hstack.trans hm))

end Machine

mutual

theorem Statement.exec_located : ∀ (s : Statement) (m : Machine),
    (s.exec m).Located m.trace [s]
  | .declaration name value loc, m => by
    rw [Statement.exec]
    refine Machine.located_within (s := .declaration name value loc) fun n hn => ?_
    exact Machine.located_evaluate hn (fun x => Machine.located_none _) _
  | .printText contents loc, m => by
    rw [Statement.exec]
    exact Machine.located_within (s := .printText contents loc) fun n _ => Machine.located_none _
  | .printValue value loc, m => by
    rw [Statement.exec]
    refine Machine.located_within (s := .printValue value loc) fun n hn => ?_
    exact Machine.located_evaluate hn (fun x => Machine.located_none _) _
  | .conditional test body alternative loc, m => by
    rw [Statement.exec]
    refine Machine.located_within (s := .conditional test body alternative loc) fun n hn => ?_
    refine Machine.located_evaluate hn (fun holds => ?_) _
    -- inside, the trace ends in the frame of this statement: the way begins with it
    have hbody := Program.exec_located body n
    have halternative := Program.exec_located alternative n
    rw [hn] at hbody halternative
    intro halt hhalt
    apply Halt.located_of_inside
    cases holds
    · exact Halt.located_mono (fun t ht => List.mem_append_right body ht)
        (halternative halt hhalt)
    · exact Halt.located_mono (fun t ht => List.mem_append_left alternative ht)
        (hbody halt hhalt)
  | .loop test body loc, m => by
    rw [Statement.exec]
    refine Machine.located_within (s := .loop test body loc) fun n hn => ?_
    refine Machine.located_repeatWhile (Program.exec_keeps body) (fun k hk => ?_) _ _ hn
    have hbody := Program.exec_located body k
    rw [hk] at hbody
    intro halt hhalt
    exact Halt.located_of_inside (hbody halt hhalt)
  | .foreign name body loc, m => by
    rw [Statement.exec]
    refine Machine.located_within (s := .foreign name body loc) fun n _ halt hhalt => ?_
    cases hhalt
    exact .unsupported name
  | .absent part, m => by
    rw [Statement.exec]
    intro halt hhalt
    cases hhalt
    exact .unsupported part

theorem Program.exec_located : ∀ (p : List Statement) (m : Machine),
    (Program.exec p m).Located m.trace p
  | [], m => by
    rw [Program.exec_nil]
    exact Machine.located_none m
  | s :: rest, m => by
    have hs := Statement.exec_located s m
    have hrest := Program.exec_located rest (s.exec m).2
    have htrace : (s.exec m).2.trace = m.trace :=
      congrArg List.reverse (Statement.exec_keeps s m).stack
    rw [htrace] at hrest
    rw [Program.exec_cons]
    apply Machine.located_andThen
    · intro halt hhalt
      refine Halt.located_mono (fun t ht => ?_) (hs halt hhalt)
      rw [List.mem_singleton.mp ht]
      exact List.mem_cons_self
    · intro halt hhalt
      exact Halt.located_mono (fun t ht => List.mem_cons_of_mem s ht) (hrest halt hhalt)

end

/-- How the outcome of a run of `p` tells where in the program the run ended. -/
structure Outcome.Traced (p : Program) (o : Outcome) : Prop where
  ended : o.status = .ok ∨ o.status = .runtimeError ∨ o.status = .paused
  ok : o.status = .ok → o.trace = []
  fault : o.status = .runtimeError → ∃ way s, Program.Path p (way ++ [s]) ∧
    o.trace = (way ++ [s]).map Statement.frame ∧
    ∃ d, o.fault = some d ∧ d.concern = .runtime ∧ d.start = s.loc
  pause : o.status = .paused → ∃ way s, Program.Path p (way ++ [s]) ∧
    o.trace = way.map Statement.frame ∧ o.breakpoint = some s.loc

theorem Outcome.traced_ofStep {p : Program} {step : Step} (hlocated : step.Located [] p)
    (hsupported : step.Supported) : (Outcome.ofStep step.1 step.2).Traced p := by
  obtain ⟨halt, m⟩ := step
  cases halt with
  | none => exact ⟨Or.inl rfl, fun _ => rfl, nofun, nofun⟩
  | some halt =>
    have hhalt := hlocated halt rfl
    cases hhalt with
    | @fault way s cause path =>
      refine ⟨Or.inr (Or.inl rfl), nofun, fun _ => ?_, nofun⟩
      exact ⟨way, s, path, rfl, _, rfl, rfl, rfl⟩
    | @pause way s path =>
      refine ⟨Or.inr (Or.inr rfl), nofun, nofun, fun _ => ?_⟩
      exact ⟨way, s, path, rfl, rfl⟩
    | unsupported name => exact absurd rfl (hsupported name)

namespace Program

/-- A run leaves no statement on the stack. Its trace is empty if it came to its
end. Otherwise it is the way down to where the run halted: to the statement at
fault and with it, or up to a statement that a breakpoint stands at. -/
theorem run_traced {tokens : List Token} {p : Program} (h : ofTokens tokens = .ok p)
    (breakpoints : Breakpoints) (cap : Cap) :
    p.run? breakpoints cap.count = .ok (p.run breakpoints cap) ∧
      (p.run breakpoints cap).Traced p ∧ (exec p (.start breakpoints cap)).2.stack = [] := by
  have hgenuine := genuine_of_ofTokens h
  have hlocated := exec_located p (.start breakpoints cap)
  have hsupported := exec_supported p hgenuine (.start breakpoints cap)
  have hkeeps := exec_keeps p (.start breakpoints cap)
  exact ⟨run?_count hgenuine breakpoints cap, Outcome.traced_ofStep hlocated hsupported,
    hkeeps.stack⟩

end Program

/-! A loop that runs twice, and after it a conditional around a statement that
prints a variable which has no value. -/
namespace Sample

def source : String :=
  Text.joinLines ["maano i = 0", "jabtak i < 2 \x7b", "  maano i = i + 1", "  likho i", "\x7d",
    "agar i == 2 \x7b", "  likho x", "\x7d"]

def tokens : List Token :=
  match Source.scan Source.unnamed source with
  | .ok tokens => tokens
  | .error _ => []

def program : Program :=
  match Program.ofTokens tokens with
  | .ok p => p
  | .error _ => []

theorem ofTokens_eq : Program.ofTokens tokens = .ok program := by
  have hok : (Program.ofTokens tokens).isOk = true := by decide +kernel
  unfold program
  cases h : Program.ofTokens tokens with
  | ok p => rfl
  | error e =>
    rw [h] at hok
    cases hok

/-- As many rounds as the loop needs. -/
def cap : Cap where
  count := 2

end Sample

theorem Program.run_traced_sample : ofTokens Sample.tokens = .ok Sample.program ∧
    ((Sample.program.run .empty Sample.cap).status = .runtimeError ∧
      (Sample.program.run .empty Sample.cap).trace = [⟨.conditional, 6, 1⟩, ⟨.print, 7, 3⟩] ∧
      (Sample.program.run (.ofList [4]) Sample.cap).status = .paused ∧
      (Sample.program.run (.ofList [4]) Sample.cap).trace = [⟨.loop, 2, 1⟩]) ∧
    (Sample.program.run .empty Sample.cap).Traced Sample.program ∧
    (Sample.program.run (.ofList [4]) Sample.cap).Traced Sample.program :=
  ⟨Sample.ofTokens_eq, by decide +kernel, (run_traced Sample.ofTokens_eq _ _).2.1,
    (run_traced Sample.ofTokens_eq _ _).2.1⟩

end Crafter
