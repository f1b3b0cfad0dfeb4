import Crafter.Source.Position
import Crafter.Text.Lines

/-! The lines around a place in a source text, with carets below the place. -/
namespace Crafter.Source

/-- A source line behind its number, which takes four columns or more. -/
def numberedLine (number : Nat) (line : String) : String :=
  Text.alignRight 4 (toString number) ++ ": " ++ line

/-- The line of carets: the first one stands below column `column`, the last
one below `endColumn`. At least one caret is drawn, and an end in column 0 is
taken as no end. -/
def caretLine (column : Int) (endColumn : Option Int) : String :=
  let last := match endColumn with
    | none | some 0 => column
    | some stop => stop
  String.ofList (List.replicate 6 ' ' ++ List.replicate (column - 1).toNat ' ' ++
    List.replicate (max 1 (last - column + 1)).toNat '^')

/-- The source lines at most `radius` lines away from line `place.line`, and
carets below the place; empty if the text has no such line. -/
def excerpt (source : String) (place : Position) (endColumn : Option Int) (radius : Int) :
    String :=
  let lines := Text.linesOf source
  if place.line < 1 ∨ (lines.length : Int) < place.line then ""
  else
    let near := (lines.zipIdx 1).filter fun (_, n) =>
      place.line - radius ≤ (n : Int) && (n : Int) ≤ place.line + radius
    Text.joinLines (near.flatMap fun (line, n) =>
      if (n : Int) = place.line then
        [numberedLine n line, caretLine place.column endColumn]
      else [numberedLine n line])

def radius : Int := 2

end Crafter.Source
