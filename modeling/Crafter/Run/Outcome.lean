import Crafter.Failure
import Crafter.Run.Machine
import Crafter.Text.Lines

/-! How a run ended, and what it left behind. -/
namespace Crafter

inductive Status where
  | ok
  | syntaxError
  | runtimeError
  | paused
deriving DecidableEq, Repr

def Status.name : Status → String
  | .ok => "ok"
  | .syntaxError => "syntax_error"
  | .runtimeError => "runtime_error"
  | .paused => "paused"

namespace Halt

def status : Halt → Status
  | .pause .. => .paused
  | .fault .. | .unsupported _ => .runtimeError

def message : Halt → String
  | .fault cause _ _ => cause.message
  | .pause loc _ => s!"Breakpoint hit at line {loc.line}, col {loc.column}"
  | .unsupported name => s!"'{name}'"

def loc : Halt → Position
  | .fault _ loc _ | .pause loc _ => loc
  | .unsupported _ => .first

def trace : Halt → List Frame
  | .fault _ _ trace | .pause _ trace => trace
  | .unsupported _ => []

end Halt

/-- The outcome of a run. `lines` is all that it printed, whether or not it came
to its end. -/
structure Outcome where
  status : Status
  lines : List String
  fault : Option Diagnostic
  breakpoint : Option Position
  trace : List Frame
  limitReached : Bool
  notices : List Diagnostic
  environment : Environment
  entered : List Frame

namespace Outcome

def output (o : Outcome) : String :=
  if o.status = .ok then Text.joinLines o.lines else ""

def partialOutput (o : Outcome) : String :=
  if o.status = .ok then "" else Text.joinLines o.lines

def ofStep (halt : Option Halt) (m : Machine) : Outcome where
  status := (halt.map Halt.status).getD .ok
  lines := m.output.toList
  fault := match halt with
    | some (.fault cause loc _) => some (.pointing .error .runtime cause.message loc)
    | _ => none
  breakpoint := match halt with
    | some (.pause loc _) => some loc
    | _ => none
  trace := (halt.map Halt.trace).getD []
  limitReached := m.limitReached
  notices := m.notices.toList
  environment := m.environment
  entered := m.entered.toList

end Outcome

def Machine.start? (breakpoints : Breakpoints) (cap : Int) : Except Failure Machine :=
  match Cap.ofInt? cap with
  | none => .error (.capTooSmall cap)
  | some cap => .ok (.start breakpoints cap)

namespace Program

def run (p : Program) (breakpoints : Breakpoints) (cap : Cap) : Outcome :=
  let (halt, m) := Program.exec p (.start breakpoints cap)
  .ofStep halt m

/-- Runs a program, unless the cap is too small or the program holds a node
that cannot be executed. -/
def run? (p : Program) (breakpoints : Breakpoints) (cap : Int) : Except Failure Outcome := do
  let m ← Machine.start? breakpoints cap
  match Program.exec p m with
  | (some (.unsupported name), _) => .error (.unsupported name)
  | (halt, m) => return .ofStep halt m

end Program

end Crafter
