import Crafter.Diagnostic
import Crafter.Source.Token

/-! Programs as trees of statements, and the walk through all statements of a
program in the order of its text. -/
namespace Crafter

/-- The comparison of a conditional or a loop. Its operands are tokens, so that
their places are known. -/
structure Condition where
  left : Token
  operator : String
  right : Token
deriving DecidableEq, Repr, Inhabited

def Condition.text (c : Condition) : String :=
  s!"{c.left.lexeme.value} {c.operator} {c.right.lexeme.value}"

/-- A statement with the place where it starts. Expressions are kept as text:
the tokens they are written with, separated by single blanks. Two
constructors serve trees from outside: `foreign` stands for nodes of other
names, and `absent` stands alone in a block that is not there. -/
inductive Statement where
  | declaration (name value : String) (loc : Position)
  | printText (contents : String) (loc : Position)
  | printValue (value : String) (loc : Position)
  | conditional (test : Condition) (body alternative : List Statement) (loc : Position)
  | loop (test : Condition) (body : List Statement) (loc : Position)
  | foreign (name : String) (body : List Statement) (loc : Position)
  | absent (part : String)
deriving Inhabited

abbrev Program := List Statement

def Program.rootName : String := "PROGRAM"

namespace Statement

def kind : Statement → StatementKind
  | .declaration .. => .declaration
  | .printText .. | .printValue .. => .print
  | .conditional .. => .conditional
  | .loop .. => .loop
  | .foreign name .. => .other name
  | .absent part => .other part

def loc : Statement → Position
  | .declaration _ _ loc | .printText _ loc | .printValue _ loc | .conditional _ _ _ loc
  | .loop _ _ loc | .foreign _ _ loc => loc
  | .absent _ => .first

def frame (s : Statement) : Frame := ⟨s.kind, s.loc⟩

/-- The name of the block that is not there, if the statement stands for one.
Walks through a tree break off at it. -/
def absentPart? : Statement → Option String
  | .absent part => some part
  | _ => none

end Statement

mutual

/-- A statement and all statements inside it, in the order of the text. Of the
nodes of other names only a nested root is looked into. -/
def Statement.withNested : Statement → List Statement
  | .conditional test body alternative loc =>
    .conditional test body alternative loc ::
      (Program.statements body ++ Program.statements alternative)
  | .loop test body loc => .loop test body loc :: Program.statements body
  | .foreign name body loc =>
    .foreign name body loc ::
      (if name = Program.rootName then Program.statements body else [])
  | s => [s]

def Program.statements : List Statement → List Statement
  | [] => []
  | s :: rest => s.withNested ++ Program.statements rest

end

def Program.ofKind (kind : StatementKind) (p : Program) : List Statement :=
  (Program.statements p).filter (·.kind = kind)

end Crafter
