import Crafter.Source.SyntaxError
import Crafter.Text.Quoted

/-! The ways in which a request ends without an answer, and what is said about them. -/
namespace Crafter

inductive Failure where
  | malformed (error : SyntaxError)
  | numberTooLong (digits : Nat)
  | capTooSmall (cap : Int)
  | unknownView (name : String)
  /-- A tree holds a form of statement that cannot be executed, or lacks the block
  of that name where it would be executed. -/
  | unsupported (kind : String)
  | missingPart (name : String)
  /-- A statement was asked for where there is no token. -/
  | missingStatement
  /-- A report tells of an error and names none. -/
  | missingDiagnostic
  /-- A report tells of a pause and names no place. -/
  | missingPlace
  /-- A breakpoint was asked for without a line. -/
  | missingLine
  /-- A loop cap was asked for without a number. -/
  | missingCap
  | divisionByZero
  | isDirectory (path : String)
  | notDirectory (path : String)
  | pathTooLong (path : String)
  /-- A path holds the character that ends all paths. -/
  | pathBroken
deriving DecidableEq, Repr

def views : List String := ["tokens", "ast", "ir", "run"]

def Failure.message : Failure → String
  | .malformed e => e.fault.message
  | .numberTooLong digits =>
    s!"Exceeds the limit ({Literal.maxDigits} digits) for integer string conversion: " ++
      s!"value has {digits} digits; use sys.set_int_max_str_digits() to increase the limit"
  | .capTooSmall cap => s!"max_iterations must be at least 1, got {cap}"
  | .unknownView name =>
    s!"Unknown stage '{name}', expected one of " ++ ", ".intercalate views
  | .unsupported name | .missingPart name => Text.quoted name
  | .missingStatement => "'NoneType' object has no attribute 'type'"
  | .missingDiagnostic => "list index out of range"
  | .missingPlace => "'NoneType' object is not subscriptable"
  | .missingLine => "unhashable type: 'list'"
  | .missingCap => "'<' not supported between instances of 'list' and 'int'"
  | .divisionByZero => "Division by zero"
  | .isDirectory path => "[Errno 21] Is a directory: " ++ Text.quoted path
  | .notDirectory path => "[Errno 20] Not a directory: " ++ Text.quoted path
  | .pathTooLong path => "[Errno 36] File name too long: " ++ Text.quoted path
  | .pathBroken => "embedded null byte"

end Crafter
