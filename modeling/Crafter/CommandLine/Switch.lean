import Crafter.Text.Numeral
import Crafter.Text.Quoted

/-! The options of the command line, and how an argument gives them. -/
namespace Crafter.CommandLine

inductive Switch where
  | help
  | interactive
  | tokens
  | outline
  | json
  | lint
  | breakpoint
  | cap
  | debug
  | version
deriving DecidableEq, Repr

namespace Switch

def all : List Switch :=
  [.help, .interactive, .tokens, .outline, .json, .lint, .breakpoint, .cap, .debug, .version]

def letter? : Switch → Option Char
  | .help => some 'h'
  | .interactive => some 'i'
  | .breakpoint => some 'b'
  | _ => none

def word : Switch → String
  | .help => "help"
  | .interactive => "interactive"
  | .tokens => "tokens"
  | .outline => "ast"
  | .json => "json"
  | .lint => "lint"
  | .breakpoint => "break"
  | .cap => "max-iterations"
  | .debug => "debug"
  | .version => "version"

def long (s : Switch) : String := "--" ++ s.word

def name (s : Switch) : String :=
  match s.letter? with
  | some c => s!"-{c}/{s.long}"
  | none => s.long

def takesValue : Switch → Bool
  | .breakpoint | .cap => true
  | _ => false

def ofLetter? (c : Char) : Option Switch := all.find? (·.letter? == some c)

def ofWord? (word : String) : Option Switch := all.find? (·.word == word)

def ofBeginning (start : String) : List Switch :=
  all.filter fun s => start.toList.isPrefixOf s.word.toList

end Switch

inductive UsageError where
  | ambiguous (argument : String) (candidates : List Switch)
  | unwantedValue (switch : Switch) (value : String)
  | missingValue (switch : Switch)
  | notNumber (switch : Switch) (value : String)
  | notPositive (switch : Switch) (value : Int)
  | unrecognized (arguments : List String)
deriving DecidableEq, Repr

def UsageError.message : UsageError → String
  | .ambiguous argument candidates =>
    s!"ambiguous option: {argument} could match " ++
      ", ".intercalate (candidates.map Switch.long)
  | .unwantedValue switch value =>
    s!"argument {switch.name}: ignored explicit argument {Text.quoted value}"
  | .missingValue switch => s!"argument {switch.name}: expected one argument"
  | .notNumber switch value =>
    s!"argument {switch.name}: invalid positive_int value: {Text.quoted value}"
  | .notPositive switch value =>
    s!"argument {switch.name}: expected a positive integer, got {value}"
  | .unrecognized arguments => "unrecognized arguments: " ++ " ".intercalate arguments

/-- What one argument gives, before its neighbours are looked at: some options
with the values that they have, and an option whose value is still to come. -/
structure Bundle where
  given : List (Switch × Option String)
  awaiting : Option Switch

namespace Bundle

def single (s : Switch) : Bundle :=
  if s.takesValue then ⟨[], some s⟩ else ⟨[(s, none)], none⟩

/-- A single option with a value attached to it. Two dashes divide and are no
value, so the option goes without one. -/
def valued (s : Switch) (value : List Char) : Bundle :=
  ⟨[(s, if value = ['-', '-'] then none else some (String.ofList value))], none⟩

def after (s : Switch) (b : Bundle) : Bundle := { b with given := (s, none) :: b.given }

/-- An option, given by its letter, with a text attached to it: the value of the
option, or the letters of further options, the last of which may again have a
text attached to it. -/
def ofLetters (s : Switch) : List Char → Except UsageError Bundle
  | [] => if s.takesValue then .ok (valued s []) else .error (.unwantedValue s "")
  | c :: rest =>
    if s.takesValue then .ok (valued s (c :: rest))
    else
      match Switch.ofLetter? c with
      | none => .error (.unwantedValue s (String.ofList (c :: rest)))
      | some next =>
        if rest.isEmpty then .ok (after s (single next))
        else (ofLetters next rest).map (after s)

/-- An option, given by its letter, and what follows the letter in the argument.
An equals sign right behind the letter is dropped. -/
def ofLetter (s : Switch) : List Char → Except UsageError Bundle
  | [] => .ok (single s)
  | '=' :: attached => ofLetters s attached
  | attached => ofLetters s attached

def ofValue (s : Switch) (value : List Char) : Except UsageError Bundle :=
  if s.takesValue then .ok (valued s value)
  else .error (.unwantedValue s (String.ofList value))

end Bundle

inductive Role where
  | operand
  | divider
  | bundle (b : Except UsageError Bundle)
  | unknown

/-- A negative number, whole or with a point; a line end may follow. -/
def isNegativeNumber (argument : String) : Bool :=
  match argument.toList with
  | '-' :: cs =>
    let cs := if cs.getLast? = some '\n' then cs.dropLast else cs
    let isDigit (c : Char) : Bool := (Text.decimalDigit? c).isSome
    match cs.dropWhile isDigit with
    | [] => !cs.isEmpty
    | '.' :: fraction => !fraction.isEmpty && fraction.all isDigit
    | _ => false
  | _ => false

/-- Reads an argument that begins with two dashes and more. The word may be cut
short as long as only one option begins so; a word in full is never ambiguous. -/
def readLong (argument : String) (cs : List Char) : Except UsageError Role :=
  let word := String.ofList (cs.takeWhile (· ≠ '='))
  let bundle (s : Switch) : Except UsageError Bundle :=
    match cs.dropWhile (· ≠ '=') with
    | [] => .ok (.single s)
    | _ :: value => Bundle.ofValue s value
  match Switch.ofWord? word with
  | some s => .ok (.bundle (bundle s))
  | none =>
    match Switch.ofBeginning word with
    | [s] => .ok (.bundle (bundle s))
    | [] => .ok .unknown
    | candidates => .error (.ambiguous argument candidates)

def readArgument (argument : String) : Except UsageError Role :=
  let otherwise := if isNegativeNumber argument ∨ argument.toList.contains ' ' then
    Role.operand else .unknown
  match argument.toList with
  | ['-', '-'] => .ok .divider
  | '-' :: '-' :: cs => do
    match ← readLong argument cs with
    | .unknown => return otherwise
    | reading => return reading
  | '-' :: c :: cs =>
    match Switch.ofLetter? c with
    | none => .ok otherwise
    | some s => .ok (.bundle (Bundle.ofLetter s cs))
  | _ => .ok .operand

end Crafter.CommandLine
