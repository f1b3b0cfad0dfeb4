import Crafter.Failure
import Crafter.Lint
import Crafter.Program.Outline

/-! Walks through trees from outside, in which blocks may be missing. On a tree
that comes from a program text they never fail. -/
namespace Crafter

namespace Program

def requireBlocks (statements : List Statement) : Except Failure Unit :=
  match statements.findSome? Statement.absentPart? with
  | some part => .error (.missingPart part)
  | none => .ok ()

def walk? (p : Program) : Except Failure (List Statement) := do
  requireBlocks (statements p)
  return statements p

def warnings? (tokens : List Token) (p : Program) : Except Failure (List Diagnostic) := do
  requireBlocks (statements p)
  return Lint.warnings tokens p

end Program

def Statement.outline? (depth : Int) (s : Statement) : Except Failure String := do
  Program.requireBlocks s.withNested
  return s.outline depth

end Crafter
