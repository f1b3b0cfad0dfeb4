import Crafter.Program.Statement
import Crafter.Text.Lines
import Crafter.Text.Lowercase

/-! The syntax tree as text: one line for each node, indented by two blanks for
each level. -/
namespace Crafter

def Statement.describe : Statement → String
  | .declaration name value _ => s!"declaration [name: {name}] ({value})"
  | .printText contents _ => s!"print \"{contents}\""
  | .printValue value _ => s!"print ({value})"
  | .conditional test _ _ _ => s!"conditional ({test.text})"
  | .loop test _ _ => s!"loop ({test.text})"
  | .foreign name _ _ | .absent name => Text.lowercase name

/-- A line at some depth; depths below 0 are not indented. -/
def indented (depth : Int) (line : String) : String :=
  String.ofList (List.replicate (2 * depth).toNat ' ') ++ line

mutual

/-- The lines for a statement and its blocks. A second block that is empty is
not shown. -/
def Statement.outlineLines (depth : Int) : Statement → List String
  | .conditional test body alternative loc =>
    indented depth (Statement.describe (.conditional test body alternative loc)) ::
      indented (depth + 1) "then" :: Program.outlineLines (depth + 2) body ++
      (if alternative.isEmpty then [] else
        indented (depth + 1) "else" :: Program.outlineLines (depth + 2) alternative)
  | .loop test body loc =>
    indented depth (Statement.describe (.loop test body loc)) ::
      Program.outlineLines (depth + 1) body
  | .foreign name body loc =>
    indented depth (Statement.describe (.foreign name body loc)) ::
      (if name = Program.rootName then Program.outlineLines (depth + 1) body else [])
  | s => [indented depth s.describe]

def Program.outlineLines (depth : Int) : List Statement → List String
  | [] => []
  | s :: rest => s.outlineLines depth ++ Program.outlineLines depth rest

end

def Program.root (p : Program) : Statement :=
  .foreign Program.rootName p .first

def Statement.outline (depth : Int) (s : Statement) : String :=
  Text.joinLines (s.outlineLines depth)

def Program.outline (p : Program) : String :=
  p.root.outline 0

end Crafter
