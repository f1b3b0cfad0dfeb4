import Crafter.Lint
import Crafter.Program.Outline
import Crafter.Program.Parse
import Crafter.Run.Outcome
import Crafter.Text.Lowercase

/-! Running a source text in one request, and the report on it: what the text
printed, what was wrong with it, and what is worth a look. -/
namespace Crafter

/-- The readings of a clock in milliseconds, look after look. It does not go back. -/
structure Clock where
  reading : Nat → Nat
  monotone : ∀ {i j : Nat}, i ≤ j → reading i ≤ reading j

namespace Clock

/-- The clock that every look finds one second further on. -/
def everySecond : Clock := ⟨fun look => 1000 * look, Nat.mul_le_mul_left 1000⟩

def spent (c : Clock) (first last : Nat) : Nat := c.reading last - c.reading first

/-- Of clocks for one request after the other, those that are left after `n` requests. -/
def later (clocks : Nat → Clock) (n : Nat) : Nat → Clock := fun m => clocks (m + n)

end Clock

/-- How far a request came: the text could not be scanned, its tokens were no program, or the
program was run. -/
inductive Stage where
  | scanning
  | parsing
  | running
deriving DecidableEq, Repr

structure Timing where
  scanning : Nat
  parsing : Nat
  linting : Nat
  running : Nat
  total : Nat
deriving DecidableEq, Repr, Inhabited

namespace Timing

/-- Every part is timed by a look at the clock before and one after it, the whole request by
one more look on either side. A part that fails is not timed. -/
def measured (c : Clock) : Stage → Timing
  | .scanning => ⟨0, 0, 0, 0, c.spent 0 2⟩
  | .parsing => ⟨c.spent 1 2, 0, 0, 0, c.spent 0 4⟩
  | .running => ⟨c.spent 1 2, c.spent 3 4, c.spent 5 6, c.spent 7 8, c.spent 0 9⟩

/-- The parts are done one after the other, within the time of the request. -/
theorem measured_parts_le (c : Clock) (stage : Stage) :
    (measured c stage).scanning + (measured c stage).parsing + (measured c stage).linting +
      (measured c stage).running ≤ (measured c stage).total := by
  have hscanned : c.reading 0 ≤ c.reading 1 ∧ c.reading 1 ≤ c.reading 2 :=
    ⟨c.monotone (by decide), c.monotone (by decide)⟩
  have hparsed : c.reading 2 ≤ c.reading 3 ∧ c.reading 3 ≤ c.reading 4 :=
    ⟨c.monotone (by decide), c.monotone (by decide)⟩
  have hlinted : c.reading 4 ≤ c.reading 5 ∧ c.reading 5 ≤ c.reading 6 :=
    ⟨c.monotone (by decide), c.monotone (by decide)⟩
  have hran : c.reading 6 ≤ c.reading 7 ∧ c.reading 7 ≤ c.reading 8 :=
    ⟨c.monotone (by decide), c.monotone (by decide)⟩
  have hended : c.reading 8 ≤ c.reading 9 := c.monotone (by decide)
  cases stage <;> simp only [measured, Clock.spent] <;> omega

def text (milliseconds : Nat) : String := s!"{milliseconds}.00ms"

def line (t : Timing) : String :=
  "Timing: " ++ ", ".intercalate
    [s!"lexer {text t.scanning}", s!"parser {text t.parsing}", s!"lint {text t.linting}",
      s!"interpret {text t.running}", s!"total {text t.total}"]

end Timing

structure Request where
  source : String
  file : String
  breakpoints : Breakpoints
  cap : Int

structure Report where
  status : Status
  output : String
  partialOutput : String
  warnings : List Diagnostic
  diagnostics : List Diagnostic
  breakpoint : Option Position
  trace : List Frame
  limitReached : Bool
  tokens : List Token
  program : Option Program
  reached : Stage

namespace Report

def blank (status : Status) : Report where
  status := status
  output := ""
  partialOutput := ""
  warnings := []
  diagnostics := []
  breakpoint := none
  trace := []
  limitReached := false
  tokens := []
  program := none
  reached := .scanning

def ofSyntaxError (e : SyntaxError) (tokens : List Token) (reached : Stage) : Report :=
  { blank .syntaxError with
    diagnostics := [e.diagnostic]
    tokens := tokens
    reached := reached }

/-- The report on a program that was run. Its fault, if there is one, comes
before the notices. -/
def ofOutcome (tokens : List Token) (p : Program) (o : Outcome) : Report where
  status := o.status
  output := o.output
  partialOutput := o.partialOutput
  warnings := Lint.warnings tokens p
  diagnostics := o.fault.toList ++ o.notices
  breakpoint := o.breakpoint
  trace := o.trace
  limitReached := o.limitReached
  tokens := tokens
  program := some p
  reached := .running

def timing (r : Report) (clock : Clock := .everySecond) : Timing := .measured clock r.reached

end Report

/-- Scans, parses, checks and runs a text. Only a number that is too long and a
cap that is too small leave the request without a report. -/
def Request.report (r : Request) : Except Failure Report :=
  match Source.scan r.file r.source with
  | .error (.malformed e) => .ok (.ofSyntaxError e [] .scanning)
  | .error failure => .error failure
  | .ok tokens =>
    match Program.ofBalancedTokens tokens with
    | .error e => .ok (.ofSyntaxError e tokens .parsing)
    | .ok p =>
      match p.run? r.breakpoints r.cap with
      | .error failure => .error failure
      | .ok outcome => .ok (.ofOutcome tokens p outcome)

namespace Frame

def traceLine (number : Nat) (f : Frame) : String :=
  s!"#{number} {Text.lowercase f.kind.name} at line {f.loc.line}, col {f.loc.column}"

def traceText (trace : List Frame) : String :=
  Text.joinLines ((trace.reverse.zipIdx 1).map fun (f, n) => f.traceLine n)

end Frame

namespace Report

def errorBlock (r : Report) (error : Diagnostic) (source : Option String) : String :=
  let title := if r.status = .syntaxError then "Syntax Error" else "Runtime Error"
  let context := match source with
    | none => []
    | some source =>
      let lines := Source.excerpt source error.start none Source.radius
      if lines = "" then [] else [lines]
  let trace := Frame.traceText r.trace
  Text.joinLines (title :: error.oneLine :: context) ++
    if trace = "" then "" else "\n\nStack Trace:\n" ++ trace

/-- What the request came to: the output, the place where it paused, or the
first error. A report that lacks the place or the error cannot be told. -/
def mainBlock (r : Report) (source : Option String) : Except Failure String :=
  match r.status with
  | .ok => .ok r.output
  | .paused =>
    match r.breakpoint with
    | none => .error .missingPlace
    | some loc => .ok s!"Breakpoint\nExecution paused at line {loc.line}, col {loc.column}."
  | .syntaxError | .runtimeError =>
    match r.diagnostics with
    | [] => .error .missingDiagnostic
    | error :: _ => .ok (r.errorBlock error source)

def pointList (title : String) (points : List String) : String :=
  match points with
  | [] => ""
  | points => Text.joinLines (title :: points.map ("- " ++ ·))

def text (r : Report) (source : Option String) : Except Failure String :=
  (r.mainBlock source).map fun main =>
    let notices := (r.diagnostics.filter (·.concern = .limit)).map (·.oneLine)
    let parts := [main, pointList "Notices:" notices,
      pointList "Lint Warnings:" (r.warnings.map (·.message))]
    "\n\n".intercalate (parts.filter (· ≠ ""))

end Report

end Crafter
