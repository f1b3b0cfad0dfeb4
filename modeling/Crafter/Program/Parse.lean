import Crafter.Program.Statement
import Crafter.Source.Scan
import Crafter.Source.SyntaxError

/-! From tokens to programs, and from source text to programs in one go. The parser reads the tokens one at a time, from
left to right. What it remembers is a `Reading`: the statements that are
complete, the blocks that are open, and a `Mode` for the statement under way.
One token always settles what to do next, so nothing is ever read twice. -/
namespace Crafter

inductive Comparison where
  | less
  | greater
  | atMost
  | atLeast
  | equal
  | unequal
deriving DecidableEq, Repr

namespace Comparison

def spelling : Comparison → String
  | .less => "<"
  | .greater => ">"
  | .atMost => "<="
  | .atLeast => ">="
  | .equal => "=="
  | .unequal => "!="

def ofSpelling? (operator : String) : Option Comparison :=
  [less, greater, atMost, atLeast, equal, unequal].find? (·.spelling == operator)

end Comparison

/-- A statement that an expression ends: what comes before the expression. -/
inductive ExpressionOwner where
  | declaration (keyword : Token) (name : String) (target : Token)
  | print (keyword : Token)
deriving DecidableEq, Repr

inductive ComparisonOwner where
  | conditional (keyword : Token)
  | loop (keyword : Token)
deriving DecidableEq, Repr

/-- The statement that a block belongs to, as far as it is known before the
block. -/
inductive BlockOwner where
  | consequence (test : Condition) (loc : Position)
  | alternative (test : Condition) (body : List Statement) (loc : Position)
  | loop (test : Condition) (loc : Position)

def ComparisonOwner.block (test : Condition) : ComparisonOwner → BlockOwner
  | .conditional keyword => .consequence test keyword.span.start
  | .loop keyword => .loop test keyword.span.start

inductive Mode where
  /-- Between two statements of a block, or before its end. -/
  | between
  /-- A declaration, before its name. -/
  | declared (keyword : Token)
  /-- A declaration, before its equals sign. -/
  | named (keyword : Token) (name : String) (target : Token)
  /-- A `likho`, before what it prints. -/
  | printing (keyword : Token)
  /-- An expression, with the texts of its tokens so far, the last one first. -/
  | expression (owner : ExpressionOwner) (parts : List String)
  /-- A comparison, before its left operand. -/
  | compared (owner : ComparisonOwner)
  /-- A comparison, before its operator. -/
  | related (owner : ComparisonOwner) (left : Token)
  /-- A comparison, before its right operand. -/
  | closing (owner : ComparisonOwner) (left : Token) (operator : String)
  /-- Before the opening brace of a block. -/
  | opening (owner : BlockOwner)
  /-- After the block of a conditional, where another block may follow. -/
  | decided (test : Condition) (body : List Statement) (loc : Position)

/-- A block that is open: its statement, its opening brace, and the statements
before it in the enclosing block, the last one first. -/
structure OpenBlock where
  owner : BlockOwner
  opener : Token
  before : List Statement

/-- What the parser remembers: the mode, the open blocks from the innermost
outwards, the complete statements of the innermost block, the last one first,
and the token read last. -/
structure Reading where
  mode : Mode
  blocks : List OpenBlock
  complete : List Statement
  last : Option Token

namespace Reading

def start : Reading := ⟨.between, [], [], none⟩

def add (r : Reading) (s : Statement) : Reading :=
  { r with mode := .between, complete := s :: r.complete }

def enter (r : Reading) (mode : Mode) : Except SyntaxError Reading :=
  .ok { r with mode := mode }

def joinParts (parts : List String) : String :=
  " ".intercalate parts.reverse

/-- Ends the statement under way if it may end here. An expression may not be
empty; any other unfinished statement is left as it is. -/
def settle (r : Reading) : Except SyntaxError Reading :=
  match r.mode with
  | .printing keyword => .error (.atToken (.noValue false) keyword)
  | .expression (.declaration _ _ target) [] => .error (.atToken (.noValue true) target)
  | .expression (.print keyword) [] => .error (.atToken (.noValue false) keyword)
  | .expression (.declaration keyword name _) parts =>
    .ok (r.add (.declaration name (joinParts parts) keyword.span.start))
  | .expression (.print keyword) parts =>
    .ok (r.add (.printValue (joinParts parts) keyword.span.start))
  | .decided test body loc => .ok (r.add (.conditional test body [] loc))
  | _ => .ok r

/-- Whether the statement under way may take the token in, or insists on it. -/
def continues (r : Reading) (t : Token) : Bool :=
  match r.mode, t.lexeme with
  | .printing _, .string _ => true
  | .printing _, lexeme | .expression _ _, lexeme => lexeme.inExpression
  | .decided .., .keyword .otherwise => true
  | .decided .., _ => false
  | _, _ => true

def close (r : Reading) (block : OpenBlock) (outer : List OpenBlock) : Reading :=
  let body := r.complete.reverse
  let around := { r with blocks := outer, complete := block.before }
  match block.owner with
  | .consequence test loc => { around with mode := .decided test body loc }
  | .alternative test body' loc => around.add (.conditional test body' body loc)
  | .loop test loc => around.add (.loop test body loc)

def begin (r : Reading) (t : Token) : Except SyntaxError Reading :=
  match t.lexeme, r.blocks with
  | .keyword .declare, _ => r.enter (.declared t)
  | .keyword .print, _ => r.enter (.printing t)
  | .keyword .branch, _ => r.enter (.compared (.conditional t))
  | .keyword .loop, _ => r.enter (.compared (.loop t))
  | .brace .closing, block :: outer => .ok (r.close block outer)
  | .brace .opening, _ :: _ =>
    .error (.atToken (.wrongToken t.lexeme.value (.brace .closing)) t)
  | _, _ => .error (.atToken (.strayToken t.lexeme.value) t)

def operand (t : Token) : Except SyntaxError Token :=
  match t.lexeme with
  | .identifier _ | .number _ => .ok t
  | lexeme => .error (.atToken (.wrongToken lexeme.value .operand) t)

def take (r : Reading) (t : Token) : Except SyntaxError Reading :=
  match r.mode with
  | .between => r.begin t
  | .declared keyword =>
    match t.lexeme with
    | .identifier name => r.enter (.named keyword name t)
    | lexeme => .error (.atToken (.wrongToken lexeme.value .name) t)
  | .named keyword name target =>
    if t.lexeme = .operator "=" then
      r.enter (.expression (.declaration keyword name target) [])
    else .error (.atToken (.wrongToken t.lexeme.value .equals) t)
  | .printing keyword =>
    match t.lexeme with
    | .string contents => .ok (r.add (.printText contents keyword.span.start))
    | _ => r.enter (.expression (.print keyword) [t.span.text])
  | .expression owner parts => r.enter (.expression owner (t.span.text :: parts))
  | .compared owner => do
    r.enter (.related owner (← operand t))
  | .related owner left =>
    match t.lexeme with
    | .operator operator =>
      if (Comparison.ofSpelling? operator).isSome then r.enter (.closing owner left operator)
      else .error (.atToken (.notComparison operator) t)
    | lexeme => .error (.atToken (.wrongToken lexeme.value .operator) t)
  | .closing owner left operator => do
    r.enter (.opening (owner.block ⟨left, operator, ← operand t⟩))
  | .opening owner =>
    if t.lexeme = .brace .opening then
      .ok { r with mode := .between, blocks := ⟨owner, t, r.complete⟩ :: r.blocks, complete := [] }
    else .error (.atToken (.wrongToken t.lexeme.value (.brace .opening)) t)
  | .decided test body loc => r.enter (.opening (.alternative test body loc))

/-- One token further: the statement under way takes it in, or ends before it
and the token begins the next one. -/
def step (r : Reading) (t : Token) : Except SyntaxError Reading := do
  let r ← if r.continues t then .ok r else r.settle
  let r ← r.take t
  return { r with last := some t }

def expected : Mode → Option Expected
  | .declared _ => some .name
  | .named .. => some .equals
  | .compared _ | .closing .. => some .operand
  | .related .. => some .operator
  | .opening _ => some (.brace .opening)
  | .between | .printing _ | .expression .. | .decided .. => none

/-- The end of the tokens: all blocks have to be closed. -/
def finish (r : Reading) : Except SyntaxError Program := do
  match expected r.mode with
  | some wanted => .error (.atLast (.endOfInput wanted) r.last)
  | none =>
    let r ← r.settle
    match r.blocks with
    | [] => .ok r.complete.reverse
    | block :: _ => .error (.atToken .openBlock block.opener)

end Reading

namespace Source

/-- The opening braces that are still open after one more token, the innermost
first; a closing brace without a partner is an error. -/
def balanceStep (opened : List Token) (t : Token) : Except SyntaxError (List Token) :=
  match t.lexeme with
  | .brace .opening => .ok (t :: opened)
  | .brace .closing =>
    match opened with
    | [] => .error (.atToken .strayClosing t)
    | _ :: rest => .ok rest
  | _ => .ok opened

/-- Passes if the braces are balanced. Otherwise the first closing brace
without a partner is reported, or else the innermost block left open. -/
def checkBalance (tokens : List Token) : Except SyntaxError Unit :=
  match tokens.foldlM balanceStep [] with
  | .error e => .error e
  | .ok [] => .ok ()
  | .ok (opener :: _) => .error (.atToken .openBlock opener)

end Source

namespace Program

def ofTokens (tokens : List Token) : Except SyntaxError Program := do
  (← tokens.foldlM Reading.step Reading.start).finish

def ofBalancedTokens (tokens : List Token) : Except SyntaxError Program := do
  Source.checkBalance tokens
  ofTokens tokens

/-- The program that the tokens of a source make up. Errors are shown within
the source. -/
def ofTokensOf (source : String) (tokens : List Token) : Except Failure Program :=
  match ofBalancedTokens tokens with
  | .error e => .error (.malformed (e.within source))
  | .ok p => .ok p

def ofSource (file source : String) : Except Failure (List Token × Program) := do
  let tokens ← Source.scan file source
  return (tokens, ← ofTokensOf source tokens)

end Program

end Crafter
