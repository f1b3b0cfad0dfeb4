import Crafter.Proofs.Kept
import Crafter.Proofs.Legible
import Crafter.Proofs.Translation
import Crafter.Run.Outcome

/-! A translated program runs as the program itself does. Names are only looked up
and places only noted, so that the machine goes through the translations of its
states; places count for one thing, whether their line has a breakpoint. What was
recorded before a run is not looked at, so it may be anything. -/
namespace Crafter

open Grammar

def Frame.translate (τ : Translation) (f : Frame) : Frame := ⟨f.kind, τ.start f.loc⟩

/-- A message about a single place, told of the new place. -/
def Diagnostic.translate (τ : Translation) (d : Diagnostic) : Diagnostic :=
  { d with start := τ.start d.start }

def Halt.translate (τ : Translation) : Halt → Halt
  | .fault cause loc trace =>
    .fault (cause.rename τ.names.text) (τ.start loc) (trace.map (Frame.translate τ))
  | .pause loc trace => .pause (τ.start loc) (trace.map (Frame.translate τ))
  | .unsupported name => .unsupported name

/-- What a machine has recorded: the notices, and the statements begun. -/
structure Log where
  notices : Array Diagnostic
  entered : Array Frame

namespace Log

def empty : Log := ⟨#[], #[]⟩

def append (log later : Log) : Log :=
  ⟨log.notices ++ later.notices, log.entered ++ later.entered⟩

def translate (τ : Translation) (log : Log) : Log :=
  ⟨log.notices.map (Diagnostic.translate τ), log.entered.map (Frame.translate τ)⟩

theorem append_empty (log : Log) : log.append empty = log := by
  unfold append empty
  simp only [Array.append_empty]

theorem empty_append (log : Log) : empty.append log = log := by
  unfold append empty
  simp only [Array.empty_append]

theorem append_assoc (a b c : Log) : (a.append b).append c = a.append (b.append c) := by
  unfold append
  simp only [Array.append_assoc]

theorem translate_empty (τ : Translation) : empty.translate τ = empty := by
  unfold translate empty
  simp only [List.map_toArray, List.map_nil]

end Log

def Machine.log (m : Machine) : Log := ⟨m.notices, m.entered⟩

def Machine.withLog (m : Machine) (log : Log) : Machine :=
  { m with notices := log.notices, entered := log.entered }

/-- The machine under the new names and with the new places, after what is in the log. -/
def Machine.translate (τ : Translation) (log : Log) (m : Machine) : Machine where
  environment := m.environment.rename τ.names.text
  output := m.output
  stack := m.stack.map (Frame.translate τ)
  breakpoints := m.breakpoints
  cap := m.cap
  limitReached := m.limitReached
  notices := log.notices ++ m.notices.map (Diagnostic.translate τ)
  entered := log.entered ++ m.entered.map (Frame.translate τ)

def Step.translate (τ : Translation) (log : Log) (step : Step) : Step :=
  (step.1.map (Halt.translate τ), step.2.translate τ log)

/-- Places have breakpoints on their lines if their new places have. -/
def Translation.Respects (τ : Translation) (breakpoints : Breakpoints) : Prop :=
  ∀ p : Position, (τ.start p).line ∈ breakpoints ↔ p.line ∈ breakpoints

/-- The statement's own condition, if it has one, compares names and numbers. -/
def Statement.ComparesOperands : Statement → Prop
  | .conditional test _ _ _ | .loop test _ _ => IsOperand test.left ∧ IsOperand test.right
  | .declaration .. | .printText .. | .printValue .. | .foreign .. | .absent _ => True

theorem Program.comparesOperands_of_ofTokens {tokens : List Token} {p : Program}
    (h : ofTokens tokens = .ok p) : ∀ s ∈ statements p, s.ComparesOperands := by
  intro s hs
  obtain ⟨d, _, rfl⟩ := exists_derivation_of_ofTokens h
  rw [statements_tree] at hs
  obtain ⟨phrase, _, rfl⟩ := List.mem_map.mp hs
  cases phrase with
  | conditional keyword test | alternative keyword test | loop keyword test =>
    exact ⟨test.left.property, test.right.property⟩
  | declaration | printText | printValue => trivial

section

variable (τ : Translation)

namespace Environment

theorem evalToken_translate {t : Token} (h : IsOperand t) (env : Environment) :
    (env.rename τ.names.text).evalToken (t.translate τ) =
      (env.evalToken t).mapError (Fault.rename τ.names.text) := by
  obtain ⟨lexeme, span⟩ := t
  rcases h with ⟨name, hlexeme⟩ | ⟨value, hlexeme⟩
  · cases hlexeme
    change (env.rename τ.names.text).operand (τ.names.text name).toList = _
    rw [τ.names.toList_text, operand_rename]
    rfl
  · cases hlexeme
    rfl

theorem test_translate {c : Condition} (hleft : IsOperand c.left) (hright : IsOperand c.right)
    (env : Environment) : (env.rename τ.names.text).test (c.translate τ) =
      (env.test c).mapError (Fault.rename τ.names.text) := by
  unfold test
  rw [show (c.translate τ).left = c.left.translate τ from rfl,
    show (c.translate τ).right = c.right.translate τ from rfl, evalToken_translate τ hleft,
    evalToken_translate τ hright]
  cases env.evalToken c.left with
  | error cause => rfl
  | ok x => cases env.evalToken c.right <;> rfl

end Environment

namespace Machine

variable (log : Log) (m : Machine)

theorem environment_translate :
    (m.translate τ log).environment = m.environment.rename τ.names.text := rfl

theorem translate_enter (frame : Frame) :
    (m.enter frame).translate τ log = (m.translate τ log).enter (frame.translate τ) := by
  simp [enter, translate]

theorem translate_leave : m.leave.translate τ log = (m.translate τ log).leave := by
  simp [leave, translate]

theorem translate_bind (name : String) (x : Float) :
    (m.bind name x).translate τ log = (m.translate τ log).bind (τ.names.text name) x := by
  simp [bind, translate, Environment.rename_insert]

theorem translate_print (line : String) :
    (m.print line).translate τ log = (m.translate τ log).print line := rfl

theorem translate_cutOff (loc : Position) :
    (m.cutOff loc).translate τ log = (m.translate τ log).cutOff (τ.start loc) := by
  simp only [cutOff, translate, Array.map_push, Array.append_push]
  rfl

theorem translate_trace : (m.translate τ log).trace = m.trace.map (Frame.translate τ) := by
  simp [trace, translate]

theorem translate_start (breakpoints : Breakpoints) (cap : Cap) :
    (start breakpoints cap).translate τ .empty = start breakpoints cap := by
  simp [start, translate, Environment.rename_empty, Log.empty]

end Machine

namespace Step

variable {τ} {log : Log} {m : Machine}

theorem translate_leave (step : Step) : step.leave.translate τ log = (step.translate τ log).leave := by
  unfold leave translate
  rw [Machine.translate_leave]

theorem translate_andThen {step : Step} {next next' : Machine → Step}
    (h : ∀ after, step = (none, after) → next' (after.translate τ log) = (next after).translate τ log) :
    (step.translate τ log).andThen next' = (step.andThen next).translate τ log := by
  obtain ⟨halt, after⟩ := step
  cases halt with
  | some halt => rfl
  | none => exact h after rfl

theorem translate_within {run run' : Machine → Step} {kind : StatementKind} {loc : Position}
    (h : ∀ n, τ.Respects n.breakpoints → run' (n.translate τ log) = (run n).translate τ log)
    (hb : τ.Respects m.breakpoints) :
    (m.translate τ log).within ⟨kind, τ.start loc⟩ run' = (m.within ⟨kind, loc⟩ run).translate τ log := by
  by_cases hline : loc.line ∈ m.breakpoints
  · have hline' : (τ.start loc).line ∈ (m.translate τ log).breakpoints := (hb loc).mpr hline
    rw [Machine.within_of_mem hline', Machine.within_of_mem hline, Machine.translate_trace]
    rfl
  · have hline' : (τ.start loc).line ∉ (m.translate τ log).breakpoints := (hb loc).not.mpr hline
    rw [Machine.within_of_not_mem hline', Machine.within_of_not_mem hline, translate_leave,
      ← h (m.enter ⟨kind, loc⟩) hb, Machine.translate_enter]
    rfl

theorem translate_evaluate {α : Type} {result : Except Fault α} {loc : Position}
    {next next' : α → Step} (h : ∀ x, next' x = (next x).translate τ log) :
    (m.translate τ log).evaluate (result.mapError (Fault.rename τ.names.text)) (τ.start loc) next' =
      (m.evaluate result loc next).translate τ log := by
  cases result with
  | error cause =>
    change (m.translate τ log).fault _ _ = (m.fault cause loc).translate τ log
    unfold Machine.fault
    rw [Machine.translate_trace]
    rfl
  | ok x => exact h x

theorem translate_repeatWhile {test test' : Machine → Except Fault Bool}
    {body body' : Machine → Step} {loc : Position}
    (htest : ∀ m, test' (m.translate τ log) = (test m).mapError (Fault.rename τ.names.text))
    (hbody : ∀ m, τ.Respects m.breakpoints → body' (m.translate τ log) = (body m).translate τ log)
    (hkeeps : ∀ m : Machine, m.Keeps (body m).2) (rounds : Nat) (hb : τ.Respects m.breakpoints) :
    Machine.repeatWhile test' body' (τ.start loc) rounds (m.translate τ log) =
      (Machine.repeatWhile test body loc rounds m).translate τ log := by
  induction rounds generalizing m with
  | zero =>
    rw [Machine.repeatWhile, Machine.repeatWhile, htest]
    apply translate_evaluate
    intro holds
    cases holds with
    | false => rfl
    | true => exact congrArg (Prod.mk none) (Machine.translate_cutOff τ log m loc).symm
  | succ rounds ih =>
    rw [Machine.repeatWhile_succ, Machine.repeatWhile_succ, htest]
    apply translate_evaluate
    intro holds
    cases holds with
    | false => rfl
    | true =>
      rw [if_pos rfl, if_pos rfl, hbody m hb]
      apply translate_andThen
      intro after hafter
      have hkept := (hkeeps m).breakpoints
      rw [hafter] at hkept
      exact ih (hkept ▸ hb)

end Step

end

section

variable {τ : Translation} (log : Log) {scope : List Statement}

mutual

theorem Statement.exec_translate (hscope : ∀ s ∈ scope, s.ComparesOperands) :
    ∀ s : Statement, s.withNested ⊆ scope → ∀ m : Machine, τ.Respects m.breakpoints →
      (s.translate τ).exec (m.translate τ log) = (s.exec m).translate τ log
  | .declaration name value loc, _, m, hb => by
    rw [Statement.translate, Statement.exec, Statement.exec]
    refine Step.translate_within (fun n _ => ?_) hb
    have hvalue := Environment.eval_rename τ.names n.environment value
    rw [Machine.environment_translate, hvalue]
    refine Step.translate_evaluate fun x => ?_
    exact congrArg (Prod.mk none) (Machine.translate_bind τ log n name x).symm
  | .printText contents loc, _, m, hb => by
    rw [Statement.translate, Statement.exec, Statement.exec]
    refine Step.translate_within (fun n _ => ?_) hb
    exact congrArg (Prod.mk none) (Machine.translate_print τ log n contents).symm
  | .printValue value loc, _, m, hb => by
    rw [Statement.translate, Statement.exec, Statement.exec]
    refine Step.translate_within (fun n _ => ?_) hb
    have hvalue := Environment.eval_rename τ.names n.environment value
    rw [Machine.environment_translate, hvalue]
    refine Step.translate_evaluate fun x => ?_
    exact congrArg (Prod.mk none) (Machine.translate_print τ log n (Number.display x)).symm
  | .conditional test body alternative loc, hs, m, hb => by
    have hself := Program.self_mem_withNested (.conditional test body alternative loc)
    obtain ⟨hleft, hright⟩ := hscope _ (hs hself)
    rw [Statement.withNested] at hs
    obtain ⟨hbody, halternative⟩ := List.append_subset.mp (List.cons_subset.mp hs).2
    rw [Statement.translate, Statement.exec, Statement.exec]
    refine Step.translate_within (fun n hn => ?_) hb
    rw [Machine.environment_translate, Environment.test_translate τ hleft hright]
    refine Step.translate_evaluate fun holds => ?_
    cases holds with
    | false => exact Program.exec_translate hscope alternative halternative n hn
    | true => exact Program.exec_translate hscope body hbody n hn
  | .loop test body loc, hs, m, hb => by
    obtain ⟨hleft, hright⟩ := hscope _ (hs (Program.self_mem_withNested (.loop test body loc)))
    rw [Statement.withNested] at hs
    rw [Statement.translate, Statement.exec, Statement.exec]
    refine Step.translate_within (fun n hn => ?_) hb
    exact Step.translate_repeatWhile
      (fun k => Environment.test_translate τ hleft hright k.environment)
      (Program.exec_translate hscope body (List.cons_subset.mp hs).2) (Program.exec_keeps body)
      n.cap.count hn
  | .foreign name body loc, _, m, hb => by
    rw [Statement.translate, Statement.exec, Statement.exec]
    exact Step.translate_within (fun n _ => rfl) hb
  | .absent part, _, m, _ => by
    rw [Statement.translate, Statement.exec, Statement.exec]
    rfl

/-- What a program does with other names at other places is what it does itself,
told in other names and of other places. -/
theorem Program.exec_translate (hscope : ∀ s ∈ scope, s.ComparesOperands) :
    ∀ p : List Statement, Program.statements p ⊆ scope → ∀ m : Machine, τ.Respects m.breakpoints →
      Program.exec (Program.translate τ p) (m.translate τ log) = (Program.exec p m).translate τ log
  | [], _, m, _ => by
    rw [Program.translate, Program.exec_nil, Program.exec_nil]
    rfl
  | s :: rest, hp, m, hb => by
    rw [Program.statements] at hp
    obtain ⟨hs, hrest⟩ := List.append_subset.mp hp
    rw [Program.translate, Program.exec_cons, Program.exec_cons,
      Statement.exec_translate hscope s hs m hb]
    refine Step.translate_andThen fun after hafter => ?_
    have hkept := (s.exec_keeps m).breakpoints
    rw [hafter] at hkept
    exact Program.exec_translate hscope rest hrest after (hkept ▸ hb)

end

end

/-! A translation that keeps the names and the places changes nothing of a run. -/

section

variable {τ : Translation}

theorem Fault.rename_refl (hnames : τ.names = .refl) (cause : Fault) :
    cause.rename τ.names.text = cause := by
  rw [hnames]
  cases cause with
  | undefined name => exact congrArg Fault.undefined (Renaming.text_refl name)
  | invalidOperand text => exact congrArg Fault.invalidOperand (Renaming.text_refl text)
  | missingOperand | divisionByZero => rfl

theorem Environment.rename_refl (hnames : τ.names = .refl) (env : Environment) :
    env.rename τ.names.text = env := by
  apply Environment.ext_get?
  intro name
  have hname : τ.names.text name = name := by rw [hnames, Renaming.text_refl]
  have hget := Environment.get?_rename τ.names.text_injective env name
  rwa [hname] at hget

theorem Frame.translate_of_start (hstart : ∀ p, τ.start p = p) : Frame.translate τ = id := by
  funext frame
  unfold translate
  rw [hstart]
  rfl

theorem Diagnostic.translate_of_start (hstart : ∀ p, τ.start p = p) :
    Diagnostic.translate τ = id := by
  funext d
  unfold translate
  rw [hstart]
  rfl

theorem Halt.translate_of_refl (hnames : τ.names = .refl) (hstart : ∀ p, τ.start p = p)
    (halt : Halt) : halt.translate τ = halt := by
  cases halt with
  | fault cause loc trace =>
    rw [translate, Fault.rename_refl hnames, hstart, Frame.translate_of_start hstart, List.map_id]
  | pause loc trace => rw [translate, hstart, Frame.translate_of_start hstart, List.map_id]
  | unsupported name => rfl

theorem Machine.translate_of_refl (hnames : τ.names = .refl) (hstart : ∀ p, τ.start p = p)
    (log : Log) (m : Machine) : m.translate τ log = m.withLog (log.append m.log) := by
  unfold translate withLog Log.append Machine.log
  rw [Environment.rename_refl hnames, Frame.translate_of_start hstart,
    Diagnostic.translate_of_start hstart, List.map_id, Array.map_id, Array.map_id]

theorem Step.translate_of_refl (hnames : τ.names = .refl) (hstart : ∀ p, τ.start p = p)
    (log : Log) (step : Step) :
    step.translate τ log = (step.1, step.2.withLog (log.append step.2.log)) := by
  obtain ⟨halt, m⟩ := step
  unfold translate
  rw [Machine.translate_of_refl hnames hstart]
  cases halt with
  | none => rfl
  | some halt => rw [Option.map_some, Halt.translate_of_refl hnames hstart]

end

namespace Program

variable {p : Program} (hoperands : ∀ s ∈ statements p, s.ComparesOperands)

include hoperands

/-- A run adds to the log and does not look at it. -/
theorem exec_withLog (m : Machine) (log : Log) :
    exec p (m.withLog log) =
      ((exec p (m.withLog .empty)).1,
        (exec p (m.withLog .empty)).2.withLog (log.append (exec p (m.withLog .empty)).2.log)) := by
  have hstay : (Translation.moving id).Respects (m.withLog .empty).breakpoints := fun _ => Iff.rfl
  have hexec := exec_translate log hoperands p (List.Subset.refl _) _ hstay
  rw [translate_id, Machine.translate_of_refl rfl fun _ => rfl,
    Step.translate_of_refl rfl fun _ => rfl] at hexec
  change exec p (m.withLog (log.append .empty)) = _ at hexec
  rwa [Log.append_empty] at hexec

theorem exec_inFile (file : String) : exec (translate (.inFile file) p) = exec p := by
  funext m
  have hstay : (Translation.inFile file).Respects m.breakpoints := fun _ => Iff.rfl
  have hexec := exec_translate .empty hoperands p (List.Subset.refl _) m hstay
  rwa [Machine.translate_of_refl rfl fun _ => rfl, Step.translate_of_refl rfl fun _ => rfl,
    Log.empty_append, Log.empty_append] at hexec

end Program

end Crafter
