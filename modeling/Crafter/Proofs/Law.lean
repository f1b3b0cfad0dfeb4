import Crafter.Proofs.Nested
import Crafter.Run.Machine

/-! What holds of every run because it holds of the single things that a run
does: giving a variable a value, printing a line, cutting a loop off, halting,
and beginning and ending a statement. -/
namespace Crafter

namespace Step

/-- Goes on from where a step left the machine, unless the step halted. -/
def andThen (step : Step) (next : Machine → Step) : Step :=
  match step with
  | (some halt, after) => (some halt, after)
  | (none, after) => next after

theorem andThen_some (halt : Halt) (after : Machine) (next : Machine → Step) :
    andThen (some halt, after) next = (some halt, after) := rfl

theorem andThen_none (after : Machine) (next : Machine → Step) :
    andThen (none, after) next = next after := rfl

/-- The step seen from outside the statement that it was made in. -/
def leave (step : Step) : Step := (step.1, step.2.leave)

end Step

namespace Machine

theorem within_of_mem {m : Machine} {frame : Frame} (h : frame.loc.line ∈ m.breakpoints)
    (run : Machine → Step) : m.within frame run = (some (.pause frame.loc m.trace), m) := by
  unfold within
  rw [if_pos h]

theorem within_of_not_mem {m : Machine} {frame : Frame} (h : frame.loc.line ∉ m.breakpoints)
    (run : Machine → Step) : m.within frame run = (run (m.enter frame)).leave := by
  unfold within
  rw [if_neg h]
  rfl

theorem repeatWhile_succ (test : Machine → Except Fault Bool) (body : Machine → Step)
    (loc : Position) (rounds : Nat) (m : Machine) :
    repeatWhile test body loc (rounds + 1) m = m.evaluate (test m) loc fun holds =>
      if holds then (body m).andThen (repeatWhile test body loc rounds) else (none, m) := by
  rw [repeatWhile]
  rfl

end Machine

namespace Program

theorem exec_nil (m : Machine) : exec [] m = (none, m) := by
  rw [exec]

theorem exec_cons (s : Statement) (rest : List Statement) (m : Machine) :
    exec (s :: rest) m = (s.exec m).andThen (exec rest) := by
  rw [exec]
  rfl

end Program

mutual

/-- The statement is of a form that a program text can give rise to, and so are
those inside it. -/
def Statement.Genuine : Statement → Prop
  | .conditional _ body alternative _ => Program.Genuine body ∧ Program.Genuine alternative
  | .loop _ body _ => Program.Genuine body
  | .foreign .. | .absent _ => False
  | .declaration .. | .printText .. | .printValue .. => True

def Program.Genuine : List Statement → Prop
  | [] => True
  | s :: rest => s.Genuine ∧ Program.Genuine rest

end

/-- The statement's own expression or condition is at fault. -/
def Statement.Fails (env : Environment) (cause : Fault) : Statement → Prop
  | .declaration _ value _ | .printValue value _ => env.eval value = .error cause
  | .conditional test _ _ _ | .loop test _ _ => env.test test = .error cause
  | .printText .. | .foreign .. | .absent _ => False

/-- A relation between a machine and a step from it that all parts of a run
obey, and longer steps if the shorter ones obey it that they are made up of. -/
structure Step.Law (P : Machine → Step → Prop) : Prop where
  idle : ∀ m, P m (none, m)
  bind : ∀ m name x, P m (none, m.bind name x)
  print : ∀ m line, P m (none, m.print line)
  cutOff : ∀ m loc, P m (none, m.cutOff loc)
  fault : ∀ m cause loc, P m (m.fault cause loc)
  pause : ∀ m loc, loc.line ∈ m.breakpoints → P m (some (.pause loc m.trace), m)
  within : ∀ m frame step, frame.loc.line ∉ m.breakpoints → P (m.enter frame) step →
    P m step.leave
  andThen : ∀ m after step, P m (none, after) → P after step → P m step

/-- The relation also holds where a run comes to a statement that cannot be
executed. -/
def Step.Tolerant (P : Machine → Step → Prop) : Prop :=
  ∀ m name, P m (some (.unsupported name), m)

/-- A relation between a machine and a step from it that all parts of a run of the
given statements obey: only the names that these declare get values, only they are at fault, and
only loops among them are cut off. -/
structure Step.LawOn (scope : List Statement) (P : Machine → Step → Prop) : Prop where
  idle : ∀ m, P m (none, m)
  declare : ∀ m name value loc x, .declaration name value loc ∈ scope → P m (none, m.bind name x)
  print : ∀ m line, P m (none, m.print line)
  cutOff : ∀ m test body loc, .loop test body loc ∈ scope → P m (none, m.cutOff loc)
  fault : ∀ m s cause, s ∈ scope → s.Fails m.environment cause → P m (m.fault cause s.loc)
  pause : ∀ m loc, loc.line ∈ m.breakpoints → P m (some (.pause loc m.trace), m)
  within : ∀ m frame step, frame.loc.line ∉ m.breakpoints → P (m.enter frame) step →
    P m step.leave
  andThen : ∀ m after step, P m (none, after) → P after step → P m step

namespace Step.LawOn

variable {scope : List Statement} {P : Machine → Step → Prop}

theorem of_andThen (law : LawOn scope P) {m : Machine} {step : Step} {next : Machine → Step}
    (h : P m step) (hnext : ∀ m, P m (next m)) : P m (step.andThen next) := by
  obtain ⟨halt, after⟩ := step
  cases halt with
  | some halt => exact h
  | none => exact law.andThen m after (next after) h (hnext after)

theorem of_within (law : LawOn scope P) {run : Machine → Step} (h : ∀ m, P m (run m))
    (m : Machine) (frame : Frame) : P m (m.within frame run) := by
  by_cases hline : frame.loc.line ∈ m.breakpoints
  · rw [Machine.within_of_mem hline]
    exact law.pause m frame.loc hline
  · rw [Machine.within_of_not_mem hline]
    exact law.within m frame (run (m.enter frame)) hline (h (m.enter frame))

theorem of_evaluate {α : Type} {m : Machine} {result : Except Fault α} {loc : Position}
    {next : α → Step} (fault : ∀ cause, result = .error cause → P m (m.fault cause loc))
    (h : ∀ x, P m (next x)) : P m (m.evaluate result loc next) := by
  cases result with
  | error cause => exact fault cause rfl
  | ok x => exact h x

theorem of_repeatWhile (law : LawOn scope P) {test : Machine → Except Fault Bool}
    {body : Machine → Step} {loc : Position}
    (fault : ∀ m cause, test m = .error cause → P m (m.fault cause loc))
    (cutOff : ∀ m, P m (none, m.cutOff loc)) (h : ∀ m, P m (body m)) (rounds : Nat)
    (m : Machine) : P m (Machine.repeatWhile test body loc rounds m) := by
  induction rounds generalizing m with
  | zero =>
    apply of_evaluate (fault m)
    intro holds
    cases holds
    · exact law.idle m
    · exact cutOff m
  | succ rounds ih =>
    rw [Machine.repeatWhile_succ]
    apply of_evaluate (fault m)
    intro holds
    cases holds
    · exact law.idle m
    · exact law.of_andThen (h m) ih

mutual

theorem of_statement (law : LawOn scope P) : ∀ (s : Statement), s.withNested ⊆ scope →
    s.Genuine ∨ Tolerant P → ∀ m, P m (s.exec m)
  | .declaration name value loc, hscope, _, m => by
    have hs := hscope (Program.self_mem_withNested (.declaration name value loc))
    rw [Statement.exec]
    refine law.of_within (fun m => of_evaluate (fun cause h => ?_) fun x => ?_) m _
    · exact law.fault m _ cause hs h
    · exact law.declare m name value loc x hs
  | .printText contents loc, _, _, m => by
    rw [Statement.exec]
    exact law.of_within (fun m => law.print m contents) m _
  | .printValue value loc, hscope, _, m => by
    have hs := hscope (Program.self_mem_withNested (.printValue value loc))
    rw [Statement.exec]
    refine law.of_within (fun m => of_evaluate (fun cause h => ?_) fun x => ?_) m _
    · exact law.fault m _ cause hs h
    · exact law.print m (Number.display x)
  | .conditional test body alternative loc, hscope, h, m => by
    have hs := hscope (Program.self_mem_withNested (.conditional test body alternative loc))
    rw [Statement.withNested] at hscope
    obtain ⟨_, hnested⟩ := List.cons_subset.mp hscope
    obtain ⟨hbody, halternative⟩ := List.append_subset.mp hnested
    rw [Statement.exec]
    refine law.of_within (fun m => of_evaluate (fun cause h => ?_) fun holds => ?_) m _
    · exact law.fault m _ cause hs h
    cases holds
    · exact of_program law alternative halternative (h.imp_left And.right) m
    · exact of_program law body hbody (h.imp_left And.left) m
  | .loop test body loc, hscope, h, m => by
    have hs := hscope (Program.self_mem_withNested (.loop test body loc))
    rw [Statement.withNested] at hscope
    obtain ⟨_, hbody⟩ := List.cons_subset.mp hscope
    rw [Statement.exec]
    refine law.of_within (fun m => law.of_repeatWhile (fun m cause h => ?_) ?_ ?_ m.cap.count m)
      m _
    · exact law.fault m _ cause hs h
    · exact fun m => law.cutOff m test body loc hs
    · exact of_program law body hbody h
  | .foreign name body loc, _, h, m => by
    have htolerant := h.resolve_left id
    rw [Statement.exec]
    exact law.of_within (fun m => htolerant m name) m _
  | .absent part, _, h, m => by
    have htolerant := h.resolve_left id
    rw [Statement.exec]
    exact htolerant m part

theorem of_program (law : LawOn scope P) : ∀ (p : List Statement), Program.statements p ⊆ scope →
    Program.Genuine p ∨ Tolerant P → ∀ m, P m (Program.exec p m)
  | [], _, _, m => by
    rw [Program.exec_nil]
    exact law.idle m
  | s :: rest, hscope, h, m => by
    rw [Program.statements] at hscope
    obtain ⟨hs, hrest⟩ := List.append_subset.mp hscope
    rw [Program.exec_cons]
    exact law.of_andThen (of_statement law s hs (h.imp_left And.left) m)
      (of_program law rest hrest (h.imp_left And.right))

end

end Step.LawOn

namespace Step.Law

variable {P : Machine → Step → Prop}

theorem on (law : Law P) (scope : List Statement) : LawOn scope P where
  idle := law.idle
  declare m name _ _ x _ := law.bind m name x
  print := law.print
  cutOff m _ _ loc _ := law.cutOff m loc
  fault m s cause _ _ := law.fault m cause s.loc
  pause := law.pause
  within := law.within
  andThen := law.andThen

theorem of_andThen (law : Law P) {m : Machine} {step : Step} {next : Machine → Step}
    (h : P m step) (hnext : ∀ m, P m (next m)) : P m (step.andThen next) :=
  (law.on []).of_andThen h hnext

theorem of_repeatWhile (law : Law P) (test : Machine → Except Fault Bool) {body : Machine → Step}
    (h : ∀ m, P m (body m)) (loc : Position) (rounds : Nat) (m : Machine) :
    P m (Machine.repeatWhile test body loc rounds m) :=
  (law.on []).of_repeatWhile (fun m cause _ => law.fault m cause loc) (fun m => law.cutOff m loc) h
    rounds m

theorem of_statement (law : Law P) (s : Statement) (h : s.Genuine ∨ Tolerant P) (m : Machine) :
    P m (s.exec m) :=
  (law.on s.withNested).of_statement s (List.Subset.refl _) h m

theorem of_program (law : Law P) (p : List Statement) (h : Program.Genuine p ∨ Tolerant P)
    (m : Machine) : P m (Program.exec p m) :=
  (law.on (Program.statements p)).of_program p (List.Subset.refl _) h m

/-- A relation between machines is a law if everything that changes a machine
obeys it: halting changes nothing. -/
theorem of_relation {R : Machine → Machine → Prop} (refl : ∀ m, R m m)
    (trans : ∀ m n k, R m n → R n k → R m k) (bind : ∀ m name x, R m (m.bind name x))
    (print : ∀ m line, R m (m.print line)) (cutOff : ∀ m loc, R m (m.cutOff loc))
    (within : ∀ m frame after, R (m.enter frame) after → R m after.leave) :
    Law fun m step => R m step.2 where
  idle := refl
  bind := bind
  print := print
  cutOff := cutOff
  fault m _ _ := refl m
  pause m _ _ := refl m
  within m frame step _ h := within m frame step.2 h
  andThen m after step := trans m after step.2

theorem of_invariant {I : Machine → Prop} (bind : ∀ m name x, I m → I (m.bind name x))
    (print : ∀ m line, I m → I (m.print line)) (cutOff : ∀ m loc, I m → I (m.cutOff loc))
    (enter : ∀ m frame, I m → I (m.enter frame)) (leave : ∀ m, I m → I m.leave) :
    Law fun m step => I m → I step.2 :=
  have within (m : Machine) (frame : Frame) (after : Machine) (h : I (m.enter frame) → I after)
      (hm : I m) : I after.leave := leave after (h (enter m frame hm))
  of_relation (R := fun m after => I m → I after) (fun _ => id) (fun _ _ _ h h' => h' ∘ h) bind
    print cutOff within

end Step.Law

end Crafter
