import Crafter.CommandLine.Switch
import Crafter.Run.Machine

/-! From the arguments of a command to what they ask for. -/
namespace Crafter.CommandLine

/-- What the arguments ask for. A breakpoint or a cap is `none` if its option was
given without a number, by two dashes attached to it. -/
structure Options where
  script : Option String
  interactive : Bool
  tokens : Bool
  outline : Bool
  json : Bool
  lint : Bool
  breakpoints : List (Option Int)
  cap : Option Int
  debug : Bool
deriving DecidableEq, Repr

def Options.standard : Options where
  script := none
  interactive := false
  tokens := false
  outline := false
  json := false
  lint := false
  breakpoints := []
  cap := some Cap.standard.count
  debug := false

def Options.runs (o : Options) : Bool := !(o.tokens || o.outline || o.lint)

def Options.path? (o : Options) : Option String := o.script.filter (· ≠ "")

inductive Stop where
  | help
  | version
  | usage (error : UsageError)
deriving DecidableEq, Repr

/-- The arguments as far as they have been followed: the options, whether the
place of the script is taken, and the arguments that have no place. -/
structure Progress where
  options : Options
  scriptTaken : Bool
  extras : List String

namespace Progress

def start : Progress := ⟨.standard, false, []⟩

def addExtra (p : Progress) (argument : String) : Progress :=
  { p with extras := p.extras ++ [argument] }

def positive (s : Switch) (value : String) : Except Stop Int :=
  match Text.intOfNumeral? value with
  | none => .error (.usage (.notNumber s value))
  | some n => if n < 1 then .error (.usage (.notPositive s n)) else .ok n

def apply (p : Progress) (given : Switch × Option String) : Except Stop Progress := do
  let o := p.options
  let options ← match given with
    | (.help, _) => .error .help
    | (.version, _) => .error .version
    | (.interactive, _) => .ok { o with interactive := true }
    | (.tokens, _) => .ok { o with tokens := true }
    | (.outline, _) => .ok { o with outline := true }
    | (.json, _) => .ok { o with json := true }
    | (.lint, _) => .ok { o with lint := true }
    | (.debug, _) => .ok { o with debug := true }
    | (.breakpoint, value) => do
      let line ← value.mapM (positive .breakpoint)
      .ok { o with breakpoints := o.breakpoints ++ [line] }
    | (.cap, value) => do
      let cap ← value.mapM (positive .cap)
      .ok { o with cap := cap }
  return { p with options := options }

def applyBundle (p : Progress) (b : Bundle) (value : Option String) : Except Stop Progress :=
  let last := match b.awaiting with
    | some s => [(s, value)]
    | none => []
  (b.given ++ last).foldlM apply p

/-- Follows the arguments one after the other. The first operand is the script,
and a divider next to it, before or after, is dropped. -/
def follow (p : Progress) : List (String × Role) → Except Stop Progress
  | [] => .ok p
  | (script, .operand) :: (divider, .divider) :: rest =>
    if p.scriptTaken then ((p.addExtra script).addExtra divider).follow rest
    else follow { p with options.script := some script, scriptTaken := true } rest
  | (argument, .operand) :: rest =>
    if p.scriptTaken then (p.addExtra argument).follow rest
    else follow { p with options.script := some argument, scriptTaken := true } rest
  | (_, .divider) :: (script, .operand) :: rest =>
    if p.scriptTaken then ((p.addExtra "--").addExtra script).follow rest
    else follow { p with options.script := some script, scriptTaken := true } rest
  | (argument, .divider) :: rest =>
    if p.scriptTaken then (p.addExtra argument).follow rest
    else follow { p with scriptTaken := true } rest
  | (argument, .unknown) :: rest => (p.addExtra argument).follow rest
  | (_, .bundle (.error e)) :: _ => .error (.usage e)
  | (_, .bundle (.ok b)) :: rest =>
    match b.awaiting, rest with
    | none, rest => do (← p.applyBundle b none).follow rest
    | some _, (value, .operand) :: rest => do (← p.applyBundle b (some value)).follow rest
    | some s, _ => .error (.usage (.missingValue s))

end Progress

/-- Reads each argument on its own. After a divider, all are operands. -/
def readArguments : List String → Except UsageError (List (String × Role))
  | [] => .ok []
  | argument :: rest => do
    match ← readArgument argument with
    | .divider => return (argument, .divider) :: rest.map fun a => (a, .operand)
    | role => return (argument, role) :: (← readArguments rest)

def Options.ofArguments (arguments : List String) : Except Stop Options :=
  match readArguments arguments with
  | .error e => .error (.usage e)
  | .ok roles => do
    let p ← Progress.start.follow roles
    if p.extras.isEmpty then return p.options
    else .error (.usage (.unrecognized p.extras))

end Crafter.CommandLine
