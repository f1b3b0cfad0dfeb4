import Crafter.Number.Display
import Crafter.Program.Parse
import Crafter.Run.Environment
import Crafter.Text.Character

/-! The value of an expression. An expression is a chain of operands with the
four operators of arithmetic between them; it is worked out strictly from left
to right, no operator binding tighter than another. -/
namespace Crafter

inductive Arithmetic where
  | add
  | sub
  | mul
  | div
deriving DecidableEq, Repr

namespace Arithmetic

def ofChar? : Char → Option Arithmetic
  | '+' => some .add
  | '-' => some .sub
  | '*' => some .mul
  | '/' => some .div
  | _ => none

def result? (operator : Arithmetic) (x y : Float) : Option Float :=
  match operator with
  | .add => some (x + y)
  | .sub => some (x - y)
  | .mul => some (x * y)
  | .div => if y == 0 then none else some (x / y)

end Arithmetic

def Comparison.holds (comparison : Comparison) (x y : Float) : Bool :=
  match comparison with
  | .less => x < y
  | .greater => x > y
  | .atMost => x ≤ y
  | .atLeast => x ≥ y
  | .equal => x == y
  | .unequal => x != y

/-- Whether the comparison that is written so holds; one that does not exist
never does. -/
def compareBy (operator : String) (x y : Float) : Bool :=
  match Comparison.ofSpelling? operator with
  | some comparison => comparison.holds x y
  | none => false

inductive Fault where
  | undefined (name : String)
  | missingOperand
  | invalidOperand (text : String)
  | divisionByZero
deriving DecidableEq, Repr

def Fault.message : Fault → String
  | .undefined name => s!"Undefined variable '{name}'"
  | .missingOperand => "Missing operand in expression"
  | .invalidOperand text => s!"Invalid operand '{text}'"
  | .divisionByZero => "Division by zero"

namespace Number

def ofDigits? (text : List Char) : Option Float :=
  if text ≠ [] ∧ text.all Char.isDigit then some (ofNat (digitsValue text)) else none

end Number

def Literal.toFloat : Literal → Float
  | .exact value => Number.ofNat value
  | .infinite => Float.ofBits (UInt64.ofNat Number.infinityBits)

namespace Environment

def operand (env : Environment) (text : List Char) : Except Fault Float :=
  match Number.ofDigits? text with
  | some x => .ok x
  | none =>
    if text = [] then .error .missingOperand
    else if text.all Char.isAlpha then
      match env.get? (String.ofList text) with
      | some x => .ok x
      | none => .error (.undefined (String.ofList text))
    else .error (.invalidOperand (String.ofList text))

end Environment

/-- The operands of an expression with the operators between them: the first
operand, and each operator with the operand after it. -/
structure Chain where
  head : List Char
  tail : List (Arithmetic × List Char)
deriving DecidableEq, Repr

/-- Cuts a text at every character that is an operator of arithmetic. -/
def Chain.ofText : List Char → Chain
  | [] => ⟨[], []⟩
  | c :: cs =>
    let rest := Chain.ofText cs
    match Arithmetic.ofChar? c with
    | some operator => ⟨[], (operator, rest.head) :: rest.tail⟩
    | none => ⟨c :: rest.head, rest.tail⟩

namespace Environment

def applyLink (env : Environment) (x : Float) (link : Arithmetic × List Char) :
    Except Fault Float :=
  match env.operand (Text.trim link.2) with
  | .error fault => .error fault
  | .ok y =>
    match link.1.result? x y with
    | none => .error .divisionByZero
    | some z => .ok z

/-- The value of an expression, or its leftmost fault. -/
def eval (env : Environment) (expression : String) : Except Fault Float :=
  let chain := Chain.ofText expression.toList
  match env.operand (Text.trim chain.head) with
  | .error fault => .error fault
  | .ok x => chain.tail.foldlM env.applyLink x

def evalToken (env : Environment) (t : Token) : Except Fault Float :=
  match t.lexeme with
  | .number literal => .ok literal.toFloat
  | lexeme => env.operand lexeme.value.toList

def test (env : Environment) (c : Condition) : Except Fault Bool := do
  let x ← env.evalToken c.left
  let y ← env.evalToken c.right
  return compareBy c.operator x y

end Environment

end Crafter
