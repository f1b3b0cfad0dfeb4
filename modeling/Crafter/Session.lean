import Crafter.Narration
import Crafter.Text.Numeral

/-! The interactive session: lines of a program are collected in a buffer, and
commands that begin with a colon run it or show it. -/
namespace Crafter

structure Session where
  buffer : List String
  breakpoints : Breakpoints
  cap : Int
  debug : Bool

inductive Command where
  | run
  | toggleBreakpoint (line : String)
  | listBreakpoints
  | tokens
  | outline
  | lint
  | listing
  | clear
  | help
  | unknown (name : String)
deriving DecidableEq, Repr

namespace Command

def names : List String :=
  [":run", ":break", ":breaks", ":tokens", ":ast", ":lint", ":show", ":clear", ":help", ":quit"]

def split (line : String) : String × String :=
  let cs := line.toList
  (String.ofList (cs.takeWhile (· ≠ ' ')), String.ofList ((cs.dropWhile (· ≠ ' ')).drop 1))

/-- The command that a line gives. Leaving the session is no command. -/
def ofLine (line : String) : Command :=
  let (name, argument) := split line
  match name with
  | ":run" => .run
  | ":break" => .toggleBreakpoint argument
  | ":breaks" => .listBreakpoints
  | ":tokens" => .tokens
  | ":ast" => .outline
  | ":lint" => .lint
  | ":show" => .listing
  | ":clear" => .clear
  | ":help" => .help
  | name => .unknown name

end Command

structure Reply where
  session : Session
  lines : List String
  failure : Option Failure

def Breakpoints.text (b : Breakpoints) : String :=
  if b.lines = [] then "none" else "[" ++ ", ".intercalate (b.lines.map toString) ++ "]"

namespace Session

def start (cap : Int) (debug : Bool) : Session := ⟨[], .empty, cap, debug⟩

def source (s : Session) : String := Text.joinLines s.buffer

def request (s : Session) : Request := ⟨s.source, Source.unnamed, s.breakpoints, s.cap⟩

def narrate (s : Session) (lines : List String) : List String :=
  if s.debug then lines else []

/-- The reply of a command that only shows something. A text that is no program
is reported; any other failure breaks the command off. -/
def showing (s : Session) (told : List String) : Except Failure (List String) → Reply
  | .ok lines => ⟨s, s.narrate told ++ lines, none⟩
  | .error (.malformed e) => ⟨s, s.narrate told ++ ["Syntax error: " ++ e.account], none⟩
  | .error failure => ⟨s, s.narrate told, some failure⟩

def warningLines (warnings : List Diagnostic) : List String :=
  if warnings.isEmpty then ["No lint warnings"] else warnings.map (·.oneLine)

def lintNarration (s : Session) : List String :=
  Narration.ofReading Source.unnamed s.source ++
    match Program.ofSource Source.unnamed s.source with
    | .ok (_, p) => Narration.linted p
    | .error _ => []

def numberedLines (s : Session) : List String :=
  (s.buffer.zipIdx 1).map fun (line, n) =>
    (if (n : Int) ∈ s.breakpoints then "*" else " ") ++ Source.numberedLine n line

def help : List String :=
  ["Session Commands:",
   "  :run          - Run the buffered program",
   "  :break N      - Toggle a breakpoint on line N",
   "  :breaks       - List breakpoints",
   "  :tokens       - Show the buffered program's tokens",
   "  :ast          - Show the buffered program's syntax tree",
   "  :lint         - Show lint warnings",
   "  :show         - Show the buffered program with line numbers",
   "  :clear        - Clear the program buffer",
   "  :help         - Show this help",
   "  :quit         - Exit",
   "",
   "Language features:",
   "  maano x = 5                        - Declare or update a variable",
   "  likho x + 1                        - Print an expression",
   "  likho \"hello\"                      - Print a string",
   "  agar x > 1 \x7b ... \x7d warna \x7b ... \x7d   - Conditional",
   "  jabtak i <= 5 \x7b ... \x7d              - Loop (capped iterations)"]

def perform (s : Session) (clock : Clock) : Command → Reply
  | .run =>
    s.showing (Narration.ofRequest s.request clock) do
      let r ← s.request.report
      return [← r.text (some s.source)]
  | .toggleBreakpoint argument =>
    match Text.intOfNumeral? argument with
    | none => ⟨s, [s!"Expected a line number, got '{argument}'"], none⟩
    | some line =>
      let breakpoints := s.breakpoints.toggle line
      ⟨{ s with breakpoints := breakpoints }, ["Breakpoints: " ++ breakpoints.text], none⟩
  | .listBreakpoints => ⟨s, ["Breakpoints: " ++ s.breakpoints.text], none⟩
  | .tokens =>
    let scanned := Source.scan Source.unnamed s.source
    s.showing (Narration.ofScan scanned) <| scanned.map fun tokens => [Token.listing tokens]
  | .outline =>
    s.showing (Narration.ofReading Source.unnamed s.source) <|
      (Program.ofSource Source.unnamed s.source).map fun (_, p) => [p.outline]
  | .lint =>
    s.showing s.lintNarration <|
      (Program.ofSource Source.unnamed s.source).map fun (tokens, p) =>
        warningLines (Lint.warnings tokens p)
  | .listing => ⟨s, s.numberedLines, none⟩
  | .clear => ⟨{ s with buffer := [] }, [], none⟩
  | .help => ⟨s, help, none⟩
  | .unknown name => ⟨s, [s!"Unknown command '{name}', type :help for commands"], none⟩

def command (s : Session) (line : String) (clock : Clock := .everySecond) : Reply :=
  s.perform clock (Command.ofLine line)

def completions (start : String) : List String :=
  (Keyword.all.map Keyword.spelling ++ Command.names).filter fun word =>
    start.toList.isPrefixOf word.toList

def version : String := "Crafter v0.3.0"

def banner (s : Session) : List String :=
  [s!"{version} - Interactive Mode",
   "Type program lines, ':run' to execute, ':help' for commands, ':quit' to exit",
   "Readline enabled: Use ↑/↓ for history, Tab for completion"] ++
  s.narrate ["Debug mode enabled"] ++ [""]

def prompt (s : Session) : String := s!"crafter:{s.buffer.length + 1}> "

inductive Entry where
  | quit
  | command (line : String)
  | text (line : String)
deriving DecidableEq, Repr

/-- Blanks around a command do not matter; a line of a program is kept as it
is. -/
def Entry.ofLine (line : String) : Entry :=
  let trimmed := String.ofList (Text.trim line.toList)
  if trimmed = ":quit" then .quit
  else if trimmed.toList.head? = some ':' then .command trimmed
  else .text line

structure Transcript where
  text : String
  failure : Option Failure

def Transcript.after (text : String) (t : Transcript) : Transcript :=
  { t with text := text ++ t.text }

/-- What a session makes of a line of input, unless it is left. -/
def receive (s : Session) (clock : Clock) (line : String) : Reply :=
  match Entry.ofLine line with
  | .quit => ⟨s, [], none⟩
  | .command line => s.command line clock
  | .text line => ⟨{ s with buffer := s.buffer ++ [line] }, [], none⟩

def farewell : String := "\nGoodbye!\n"

/-- Reads the lines of input one by one, up to `:quit` or the end. Every line has its
own clock. -/
def converse (s : Session) (clocks : Nat → Clock) : List String → Transcript
  | [] => ⟨s.prompt ++ farewell, none⟩
  | line :: rest =>
    if Entry.ofLine line = .quit then ⟨s.prompt, none⟩
    else
      let reply := s.receive (clocks 0) line
      let shown := s.prompt ++ Text.printed reply.lines
      match reply.failure with
      | some failure => ⟨shown, some failure⟩
      | none => (converse reply.session (Clock.later clocks 1) rest).after shown

def transcript (s : Session) (input : String)
    (clocks : Nat → Clock := fun _ => .everySecond) : Transcript :=
  (s.converse clocks (Text.inputLines input)).after (Text.printed s.banner)

end Session

end Crafter
