import Crafter.CommandLine.Files
import Crafter.CommandLine.Help
import Crafter.CommandLine.Options
import Crafter.Program.Json
import Crafter.Session

/-! The command line: what a call of the program prints and how it ends. -/
namespace Crafter.CommandLine

/-- What a call of the program comes to. A failure that no part of the program
answers for leaves the call without an exit code. -/
structure Ending where
  stdout : String
  stderr : String
  exit : Except Failure Nat

namespace Ending

def printed (lines : List String) (code : Nat) : Ending := ⟨Text.printed lines, "", .ok code⟩

def broken (lines : List String) (failure : Failure) : Ending :=
  ⟨Text.printed lines, "", .error failure⟩

end Ending

def textOfBytes (bytes : List UInt8) : Except Text.Utf8.Fault String :=
  (Text.Utf8.decode bytes).map fun cs => String.ofList (Text.unifyLineEnds cs)

def decodingFault (path : String) (f : Text.Utf8.Fault) : List String :=
  let place :=
    if f.length = 1 then
      s!"byte 0x{String.ofList (Text.hexadecimal 2 f.byte.toNat)} in position {f.offset}"
    else s!"bytes in position {f.offset}-{f.offset + f.length - 1}"
  [s!"Error: Cannot decode file '{path}': 'utf-8' codec can't decode {place}: {f.defect.text}",
   "  Hint: Make sure the file is a text file with UTF-8 encoding"]

def readScript (files : Files) (path : String) : Except Ending String :=
  match files.target path with
  | .missing => .error <| .printed
    [s!"Error: Script file '{path}' not found",
     "  Hint: Check the file path and make sure the file exists"] 1
  | .directory => .error (.broken [] (.isDirectory path))
  | .blocked => .error (.broken [] (.notDirectory path))
  | .tooLong => .error (.broken [] (.pathTooLong path))
  | .broken => .error (.broken [] .pathBroken)
  | .file bytes =>
    match textOfBytes bytes with
    | .error fault => .error (.printed (decodingFault path fault) 1)
    | .ok text => .ok text

/-- How a call ends that shows something of a script. -/
def showing (path : String) (told : List String) : Except Failure (List String) → Ending
  | .ok lines => .printed (told ++ lines) 0
  | .error (.malformed e) => .printed (told ++ [s!"Syntax error in '{path}': {e.account}"]) 1
  | .error failure => .broken told failure

def tokenLines (tokens : List Token) : List String :=
  [Narration.scanned tokens ++ ":", String.ofList (List.replicate 50 '='), Token.listing tokens]

def exitCode : Status → Nat
  | .ok | .paused => 0
  | .syntaxError | .runtimeError => 1

/-- The cap that the options ask for. Caps that are given are positive, so 0 can
stand for a cap that is missing. -/
def Options.capOrZero (o : Options) : Int := o.cap.getD 0

/-- The failure as a call of the program knows it: the only cap that can be too
small is the one that is missing. -/
def callFailure : Failure → Failure
  | .capTooSmall _ => .missingCap
  | failure => failure

def runScript (o : Options) (clock : Clock) (breakpoints : Breakpoints) (path source : String) :
    Ending :=
  let request : Request := ⟨source, path, breakpoints, o.capOrZero⟩
  let told := if o.debug then Narration.ofRequest request clock else []
  let shown := do
    let r ← request.report
    return (r, ← r.text (some source))
  match shown with
  | .error failure => .broken told (callFailure failure)
  | .ok (r, text) =>
    .printed (told ++ text :: if o.debug then ["", (r.timing clock).line] else []) (exitCode r.status)

def treatScript (o : Options) (clock : Clock) (breakpoints : Breakpoints)
    (path source : String) : Ending :=
  let told (lines : List String) := if o.debug then lines else []
  if o.tokens then
    let scanned := Source.scan path source
    showing path (told (Narration.ofScan scanned)) (scanned.map tokenLines)
  else
    let reading := Program.ofSource path source
    if o.outline then
      showing path (told (Narration.ofReading path source)) <| reading.map fun (_, p) =>
        [if o.json then p.json.text else p.outline]
    else if o.lint then
      let linted := match reading with
        | .ok (_, p) => Narration.linted p
        | .error _ => []
      showing path (told (Narration.ofReading path source ++ linted)) <|
        reading.map fun (tokens, p) => Session.warningLines (Lint.warnings tokens p)
    else runScript o clock breakpoints path source

/-- Reads a script and treats it as the options ask for. A breakpoint without a
line breaks off a run before the script is read. -/
def performScript (files : Files) (o : Options) (clock : Clock) (path : String) : Ending :=
  match o.breakpoints.mapM id, o.runs with
  | none, true => .broken [] .missingLine
  | lines, _ =>
    match readScript files path with
    | .error ending => ending
    | .ok source => treatScript o clock (.ofList (lines.getD [])) path source

def performSession (o : Options) (clocks : Nat → Clock) (stdin : String) : Ending :=
  let transcript := (Session.start o.capOrZero o.debug).transcript stdin clocks
  ⟨transcript.text, "", match transcript.failure with
    | none => .ok 0
    | some failure => .error (callFailure failure)⟩

def perform (files : Files) (clocks : Nat → Clock) (stdin : String) (o : Options) : Ending :=
  match o.path? with
  | some path =>
    match files.found path with
    | .missing | .blocked | .broken =>
      .printed [s!"Error: Script file '{path}' does not exist"] 1
    | .tooLong => .broken [] (.pathTooLong (tidyPath path))
    | .directory | .file _ => performScript files o (clocks 0) path
  | none => if o.interactive then performSession o clocks stdin else .printed help 0

def Stop.ending : Stop → Ending
  | .help => .printed CommandLine.help 0
  | .version => .printed [Session.version] 0
  | .usage e => ⟨"", Text.printed e.account, .ok 2⟩

/-- A call of the program. A session has a clock for every line of input, a script has the
first one. -/
def call (files : Files) (stdin : String) (arguments : List String)
    (clocks : Nat → Clock := fun _ => .everySecond) : Ending :=
  match Options.ofArguments arguments with
  | .error stop => stop.ending
  | .ok options => perform files clocks stdin options

end Crafter.CommandLine
