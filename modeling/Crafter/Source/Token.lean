import Crafter.Source.Literal
import Crafter.Source.Position

/-! The words of a program: keywords, names, numbers, texts in quotes,
operators and braces, each with the stretch of the source that it takes. -/
namespace Crafter

inductive Keyword where
  | declare
  | print
  | branch
  | otherwise
  | loop
deriving DecidableEq, Repr, Inhabited

namespace Keyword

def spelling : Keyword → String
  | .declare => "maano"
  | .print => "likho"
  | .branch => "agar"
  | .otherwise => "warna"
  | .loop => "jabtak"

def all : List Keyword := [.branch, .loop, .print, .declare, .otherwise]

def ofSpelling? (word : String) : Option Keyword :=
  all.find? (fun k => k.spelling == word)

end Keyword

inductive Brace where
  | opening
  | closing
deriving DecidableEq, Repr, Inhabited

def Brace.spelling : Brace → String
  | .opening => "\x7b"
  | .closing => "\x7d"

inductive Lexeme where
  | keyword (word : Keyword)
  | identifier (name : String)
  | number (value : Literal)
  | string (contents : String)
  | operator (spelling : String)
  | brace (side : Brace)
deriving DecidableEq, Repr, Inhabited

namespace Lexeme

def category : Lexeme → String
  | .keyword _ => "KEYWORD"
  | .identifier _ => "IDENTIFIER"
  | .number _ => "NUMBER"
  | .string _ => "STRING"
  | .operator _ => "OPERATOR"
  | .brace _ => "BRACE"

/-- The token's value as text: a number in decimal, a string without its
quotes, any other token as it is spelt. -/
def value : Lexeme → String
  | .keyword word => word.spelling
  | .identifier name => name
  | .number literal => literal.text
  | .string contents => contents
  | .operator spelling => spelling
  | .brace side => side.spelling

def inExpression : Lexeme → Bool
  | .identifier _ | .number _ | .operator _ => true
  | .keyword _ | .string _ | .brace _ => false

end Lexeme

structure Token where
  lexeme : Lexeme
  span : Span
deriving DecidableEq, Repr, Inhabited

namespace Token

def label (t : Token) : String :=
  s!"{t.lexeme.category}({t.lexeme.value})"

def numbered (n : Nat) (t : Token) : String :=
  s!"{n}. {t.lexeme.category}: \"{t.lexeme.value}\""

def listing (tokens : List Token) : String :=
  "\n".intercalate ((tokens.zipIdx 1).map fun (t, n) => t.numbered n)

end Token

end Crafter
