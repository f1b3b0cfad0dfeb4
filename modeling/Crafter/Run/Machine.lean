import Crafter.Run.Breakpoints
import Crafter.Run.Expression

/-! Executing statements. The machine holds all that a run changes; executing a
statement gives the machine after it and, if the run may not go on, why. -/
namespace Crafter

structure Cap where
  count : Nat
  positive : 0 < count := by decide
deriving DecidableEq, Repr

namespace Cap

def ofInt? (count : Int) : Option Cap :=
  if h : 0 < count.toNat then some ⟨count.toNat, h⟩ else none

def standard : Cap where
  count := 1000

end Cap

/-- The state of a run. `stack` holds the statements being executed, the
innermost first; `entered` holds every statement that was begun, in order. -/
structure Machine where
  environment : Environment
  output : Array String
  stack : List Frame
  breakpoints : Breakpoints
  cap : Cap
  limitReached : Bool
  notices : Array Diagnostic
  entered : Array Frame

/-- Why a run may not go on. The traces list the statements being executed from
the outermost to the innermost. -/
inductive Halt where
  | fault (cause : Fault) (loc : Position) (trace : List Frame)
  | pause (loc : Position) (trace : List Frame)
  | unsupported (name : String)
deriving DecidableEq, Repr

/-- The outcome of executing something: `none` if the run may go on. -/
abbrev Step := Option Halt × Machine

namespace Machine

def start (breakpoints : Breakpoints) (cap : Cap) : Machine where
  environment := .empty
  output := #[]
  stack := []
  breakpoints := breakpoints
  cap := cap
  limitReached := false
  notices := #[]
  entered := #[]

def trace (m : Machine) : List Frame := m.stack.reverse

def enter (m : Machine) (frame : Frame) : Machine :=
  { m with stack := frame :: m.stack, entered := m.entered.push frame }

def leave (m : Machine) : Machine := { m with stack := m.stack.tail }

def bind (m : Machine) (name : String) (value : Float) : Machine :=
  { m with environment := m.environment.insert name value }

def print (m : Machine) (line : String) : Machine :=
  { m with output := m.output.push line }

def limitNotice (cap : Cap) (loc : Position) : Diagnostic :=
  .pointing .warning .limit
    s!"Loop stopped after {cap.count} iterations (iteration limit reached)." loc

def cutOff (m : Machine) (loc : Position) : Machine :=
  { m with limitReached := true, notices := m.notices.push (limitNotice m.cap loc) }

def fault (m : Machine) (cause : Fault) (loc : Position) : Step :=
  (some (.fault cause loc m.trace), m)

/-- Runs a statement as the innermost one, unless its line has a breakpoint. -/
def within (m : Machine) (frame : Frame) (run : Machine → Step) : Step :=
  if frame.loc.line ∈ m.breakpoints then (some (.pause frame.loc m.trace), m)
  else
    let (halt, after) := run (m.enter frame)
    (halt, after.leave)

def evaluate {α : Type} (m : Machine) (result : Except Fault α) (loc : Position)
    (next : α → Step) : Step :=
  match result with
  | .error cause => m.fault cause loc
  | .ok value => next value

/-- Repeats `body` while `test` holds, at most `rounds` times. A test that still
holds after the last round is recorded: the loop was cut off. -/
def repeatWhile (test : Machine → Except Fault Bool) (body : Machine → Step) (loc : Position) :
    Nat → Machine → Step
  | 0, m => m.evaluate (test m) loc fun holds => (none, if holds then m.cutOff loc else m)
  | rounds + 1, m => m.evaluate (test m) loc fun holds =>
    if holds then
      match body m with
      | (some halt, after) => (some halt, after)
      | (none, after) => repeatWhile test body loc rounds after
    else (none, m)

end Machine

mutual

def Statement.exec : Statement → Machine → Step
  | .declaration name value loc, m =>
    m.within ⟨.declaration, loc⟩ fun m =>
      m.evaluate (m.environment.eval value) loc fun x => (none, m.bind name x)
  | .printText contents loc, m =>
    m.within ⟨.print, loc⟩ fun m => (none, m.print contents)
  | .printValue value loc, m =>
    m.within ⟨.print, loc⟩ fun m =>
      m.evaluate (m.environment.eval value) loc fun x => (none, m.print (Number.display x))
  | .conditional test body alternative loc, m =>
    m.within ⟨.conditional, loc⟩ fun m =>
      m.evaluate (m.environment.test test) loc fun holds =>
        if holds then Program.exec body m else Program.exec alternative m
  | .loop test body loc, m =>
    m.within ⟨.loop, loc⟩ fun m =>
      m.repeatWhile (fun m => m.environment.test test) (fun m => Program.exec body m) loc
        m.cap.count
  | .foreign name _ loc, m =>
    m.within ⟨.other name, loc⟩ fun m => (some (.unsupported name), m)
  | .absent part, m => (some (.unsupported part), m)

def Program.exec : List Statement → Machine → Step
  | [], m => (none, m)
  | s :: rest, m =>
    match s.exec m with
    | (some halt, after) => (some halt, after)
    | (none, after) => Program.exec rest after

end

end Crafter
