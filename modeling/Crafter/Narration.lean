import Crafter.Report

/-! What the debug mode says about each stage of the work while it is done, one
line at a time. -/
namespace Crafter.Narration

def scanned (tokens : List Token) : String := s!"Scanned {tokens.length} tokens"

def parsed (p : Program) : String := s!"Parsed {p.length} statements"

def linted (p : Program) : List String :=
  (Lint.visited p).map fun s => s!"Linting: {s.kind.name} at line {s.loc.line}"

def evaluated (entered : List Frame) : List String :=
  entered.map fun f => s!"Evaluating: {f.kind.name} at line {f.loc.line}"

def finished (status : Status) (t : Timing) : String :=
  s!"Run finished with status {status.name} in {Timing.text t.total}"

def ofScan : Except Failure (List Token) → List String
  | .ok tokens => [scanned tokens]
  | .error _ => []

def ofParse {ε : Type} : Except ε Program → List String
  | .ok p => [parsed p]
  | .error _ => []

def ofReading (file source : String) : List String :=
  match Source.scan file source with
  | .error _ => []
  | .ok tokens => scanned tokens :: ofParse (Program.ofBalancedTokens tokens)

/-- What is said while a program is run. The statements executed are told even
if one of them cannot be. -/
def ofRun (p : Program) (breakpoints : Breakpoints) (cap : Int) : List String :=
  match Machine.start? breakpoints cap with
  | .error _ => []
  | .ok m => evaluated (Program.exec p m).2.entered.toList

def ofRequest (r : Request) (clock : Clock := .everySecond) : List String :=
  match Source.scan r.file r.source with
  | .error _ => []
  | .ok tokens =>
    match Program.ofBalancedTokens tokens with
    | .error _ => []
    | .ok p =>
      parsed p :: linted p ++ ofRun p r.breakpoints r.cap ++
        match p.run? r.breakpoints r.cap with
        | .error _ => []
        | .ok outcome => [finished outcome.status (.measured clock .running)]

end Crafter.Narration
