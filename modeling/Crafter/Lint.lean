import Crafter.Program.Statement

/-! Advice on a program that is not an error: loops whose variable never
changes, variables that are never used, and uses of variables that are never
declared. -/
namespace Crafter.Lint

def letterRuns : List Char → List (List Char)
  | [] => []
  | c :: cs =>
    if c.isAlpha then
      match cs, letterRuns cs with
      | d :: _, run :: runs => if d.isAlpha then (c :: run) :: runs else [c] :: run :: runs
      | _, runs => [c] :: runs
    else letterRuns cs

/-- The names in an expression: its runs of letters that are no keywords. -/
def namesIn (expression : String) : List String :=
  ((letterRuns expression.toList).map String.ofList).filter fun word =>
    (Keyword.ofSpelling? word).isNone

def operandNames (c : Condition) : List String :=
  [c.left, c.right].filterMap fun t =>
    match t.lexeme with
    | .identifier name => some name
    | _ => none

def declaredName? : Statement → Option String
  | .declaration name _ _ => some name
  | _ => none

def usedNames : Statement → List String
  | .declaration _ value _ | .printValue value _ => namesIn value
  | .conditional test _ _ _ | .loop test _ _ => operandNames test
  | .printText .. | .foreign .. | .absent _ => []

/-- Names with the place of their first occurrence, in the order of these. -/
def firstOccurrences (occurrences : List (String × Position)) : List (String × Position) :=
  occurrences.foldl
    (fun seen (name, loc) => if seen.any (·.1 == name) then seen else seen ++ [(name, loc)]) []

def declarations (p : Program) : List (String × Position) :=
  firstOccurrences ((Program.statements p).filterMap fun s =>
    (declaredName? s).map fun name => (name, s.loc))

def uses (p : Program) : List (String × Position) :=
  firstOccurrences ((Program.statements p).flatMap fun s =>
    (usedNames s).map fun name => (name, s.loc))

def warning (message : String) (loc : Position) : Diagnostic :=
  .pointing .warning .lint message loc

/-- Whether a statement itself gives the operand of a condition a new value. A
number never gets one. -/
def assigns (operand : Token) (s : Statement) : Bool :=
  match operand.lexeme with
  | .number _ => false
  | lexeme => declaredName? s == some lexeme.value

def updates (body : List Statement) (operand : Token) : Bool :=
  (Program.statements body).any (assigns operand)

/-- The loops whose left operand no statement of their body gives a value. -/
def loopWarnings (p : Program) : List Diagnostic :=
  (Program.statements p).filterMap fun s =>
    match s with
    | .loop test body loc =>
      if updates body test.left then none
      else some (warning (s!"Loop variable '{test.left.lexeme.value}' is never updated " ++
        "inside the loop (possible infinite loop).") loc)
    | _ => none

/-- The name token after the keyword that starts at a place, if the tokens show
one there. Of several the last one counts. -/
def nameTokenAt? (tokens : List Token) (loc : Position) : Option Token :=
  ((tokens.zip tokens.tail).findRev? fun (keyword, name) =>
    match keyword.lexeme, name.lexeme with
    | .keyword _, .identifier _ => keyword.span.start = loc
    | _, _ => false).map (·.2)

/-- The variables that are declared and never used. The warning extends to the
end of the name if the tokens are known. -/
def unusedWarnings (tokens : List Token) (p : Program) : List Diagnostic :=
  let used := uses p
  ((declarations p).filter fun (name, _) => !used.any (·.1 == name)).map fun (name, loc) =>
    let stop := (nameTokenAt? tokens loc).map (·.span.stop)
    { warning s!"Variable '{name}' is declared but never used." loc with
      endLine := stop.map (·.line)
      endColumn := stop.map (·.column) }

def undeclaredWarnings (p : Program) : List Diagnostic :=
  let declared := declarations p
  ((uses p).filter fun (name, _) => !declared.any (·.1 == name)).map fun (name, loc) =>
    warning s!"Variable '{name}' is used before declaration." loc

/-- Whether looking at a statement breaks off the pass: a loop whose body lacks a
part and shows no update before it, or a conditional that lacks its second
block. -/
def breaksOff : Statement → Bool
  | .loop test body _ =>
    ((Program.statements body).takeWhile fun s => !assigns test.left s).any
      fun s => s.absentPart?.isSome
  | .conditional _ _ alternative _ => alternative.any fun s => s.absentPart?.isSome
  | _ => false

/-- The statements that the pass comes to: all of them, unless it breaks off. -/
def visited (p : Program) : List Statement :=
  go (Program.statements p)
where
  go : List Statement → List Statement
    | [] => []
    | s :: rest =>
      if s.absentPart?.isSome then []
      else s :: if breaksOff s then [] else go rest

/-- All warnings about a program. The tokens may be missing; they only tell
where names end. -/
def warnings (tokens : List Token) (p : Program) : List Diagnostic :=
  loopWarnings p ++ unusedWarnings tokens p ++ undeclaredWarnings p

end Crafter.Lint
