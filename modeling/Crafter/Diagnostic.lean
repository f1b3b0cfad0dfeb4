import Crafter.Source.Position

/-! Messages about a program, and the chain of statements that was running when
one arose. -/
namespace Crafter

inductive Severity where
  | error
  | warning
deriving DecidableEq, Repr, Inhabited

def Severity.name : Severity → String
  | .error => "error"
  | .warning => "warning"

inductive Concern where
  | syntactic
  | runtime
  | lint
  | limit
deriving DecidableEq, Repr, Inhabited

def Concern.name : Concern → String
  | .syntactic => "syntax"
  | .runtime => "runtime"
  | .lint => "lint"
  | .limit => "limit"

/-- A message with the place that it is about. The two parts of the end are
given independently of each other. -/
structure Diagnostic where
  message : String
  start : Position
  severity : Severity
  concern : Concern
  endLine : Option Int
  endColumn : Option Int
deriving DecidableEq, Repr, Inhabited

namespace Diagnostic

def pointing (severity : Severity) (concern : Concern) (message : String)
    (place : Position) : Diagnostic :=
  ⟨message, place, severity, concern, none, none⟩

def oneLine (d : Diagnostic) : String :=
  s!"{d.severity.name} at line {d.start.line}, column {d.start.column}: {d.message}"

end Diagnostic

/-- The forms of statement; `other` stands for names that no program text can
produce. -/
inductive StatementKind where
  | declaration
  | print
  | conditional
  | loop
  | other (name : String)
deriving DecidableEq, Repr, Inhabited

namespace StatementKind

def name : StatementKind → String
  | .declaration => "DECLARATION"
  | .print => "PRINT"
  | .conditional => "CONDITIONAL"
  | .loop => "LOOP"
  | .other name => name

def ofName (name : String) : StatementKind :=
  ([declaration, print, conditional, loop].find? (·.name == name)).getD (.other name)

end StatementKind

/-- A statement that is being executed: its form and the place it starts at. -/
structure Frame where
  kind : StatementKind
  loc : Position
deriving DecidableEq, Repr, Inhabited

end Crafter
