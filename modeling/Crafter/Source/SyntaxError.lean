import Crafter.Diagnostic
import Crafter.Source.Excerpt
import Crafter.Source.Token

/-! Why a text is not a program, where that shows, and how it is told. -/
namespace Crafter

inductive Expected where
  | name
  | equals
  | operator
  | operand
  | brace (side : Brace)
deriving DecidableEq, Repr

def Expected.text : Expected → String
  | .name => "identifier"
  | .equals => "operator '='"
  | .operator => "operator"
  | .operand => "identifier or number"
  | .brace side => "brace '" ++ side.spelling ++ "'"

inductive SyntaxFault where
  | openString
  | strayCharacter (c : Char)
  | strayClosing
  | openBlock
  | strayToken (value : String)
  | wrongToken (value : String) (expected : Expected)
  | endOfInput (expected : Expected)
  | notComparison (operator : String)
  | noValue (declared : Bool)
deriving DecidableEq, Repr

def SyntaxFault.message : SyntaxFault → String
  | .openString => "Unterminated string literal"
  | .strayCharacter c => s!"Unexpected character '{c}'"
  | .strayClosing => "Unmatched '" ++ Brace.closing.spelling ++ "'"
  | .openBlock => "Missing closing brace '" ++ Brace.closing.spelling ++ "'"
  | .strayToken value => s!"Unexpected token '{value}'"
  | .wrongToken value expected => s!"Unexpected token '{value}', expected {expected.text}"
  | .endOfInput expected => s!"Unexpected end of input, expected {expected.text}"
  | .notComparison operator =>
    s!"Unexpected operator '{operator}', expected a comparison operator"
  | .noValue true => "Expected expression after '='"
  | .noValue false => s!"Expected expression after '{Keyword.print.spelling}'"

namespace Diagnostic

def advice : List (List String × String) :=
  [(["Unterminated string"], "Close the string with a matching '\"'"),
   (["Unexpected token '+'", "Unexpected token '-'"],
    "'likho' prints either one string or one expression, not both joined with an operator"),
   (["comparison operator"], "Conditions compare two values with one of < > <= >= == !="),
   (["closing brace", "Unmatched '\x7d'"],
    "Every '\x7b' opening an 'agar', 'warna' or 'jabtak' block needs a matching '\x7d'"),
   (["Unexpected character"],
    "Only letters, digits, strings, braces and + - * / = < > ! are allowed"),
   (["Expected expression"], "Write a value such as 5, x or x + 1 here")]

def suggestions (message : String) : List String :=
  (advice.filter fun (phrases, _) =>
    phrases.any fun phrase => Text.occursIn phrase.toList message.toList).map (·.2)

/-- The source lines around the diagnostic. The carets run to its end if that
lies on the line where it starts; `none` if the source has no such line. -/
def excerpt (d : Diagnostic) (source : String) : Option String :=
  let endColumn := if d.endLine = none ∨ d.endLine = some d.start.line then d.endColumn else none
  let lines := Source.excerpt source d.start endColumn Source.radius
  if lines = "" then none else some lines

def account (d : Diagnostic) (excerpt : Option String) : String :=
  let place :=
    [s!"Syntax error at line {d.start.line}, column {d.start.column}:", "  " ++ d.message]
  let context := match excerpt with
    | none => []
    | some lines => ["  Context:", lines]
  let hints := match suggestions d.message with
    | [] => []
    | hints => "  Suggestions:" :: hints.map ("    - " ++ ·)
  Text.printed (place ++ context ++ hints)

end Diagnostic

/-- A fault with the place where it shows, the end of the token at fault if
there is one, and the source lines around it once they are known. -/
structure SyntaxError where
  fault : SyntaxFault
  start : Position
  stop : Option Position
  excerpt : Option String
deriving DecidableEq, Repr

namespace SyntaxError

def atPosition (fault : SyntaxFault) (place : Position) : SyntaxError :=
  ⟨fault, place, none, none⟩

def atToken (fault : SyntaxFault) (t : Token) : SyntaxError :=
  ⟨fault, t.span.start, some t.span.stop, none⟩

/-- A fault that shows at the last token read; before any token it is reported
at the start of the text. -/
def atLast (fault : SyntaxFault) : Option Token → SyntaxError
  | some t => atToken fault t
  | none => atPosition fault .first

def diagnostic (e : SyntaxError) : Diagnostic where
  message := e.fault.message
  start := e.start
  severity := .error
  concern := .syntactic
  endLine := e.stop.map (·.line)
  endColumn := e.stop.map (·.column)

def within (e : SyntaxError) (source : String) : SyntaxError :=
  { e with excerpt := e.diagnostic.excerpt source }

def account (e : SyntaxError) : String :=
  e.diagnostic.account e.excerpt

end SyntaxError

end Crafter
