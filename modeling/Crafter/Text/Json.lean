import Crafter.Text.Lines
import Crafter.Text.Quoted

/-! Values in JSON notation, one member or element to a line. Only ASCII
characters are written; numbers beyond all bounds are written as a word. -/
namespace Crafter

/-- A value of JSON, with an infinite number besides the whole ones. The members
of an object keep their order. -/
inductive Json where
  | number (value : Int)
  | infinity
  | bool (value : Bool)
  | string (contents : String)
  | array (elements : List Json)
  | object (members : List (String × Json))
deriving Inhabited

namespace Json

def escapeUnit (unit : Nat) : List Char :=
  '\\' :: 'u' :: Text.hexadecimal 4 unit

/-- A character as it stands in a string. Beyond the basic plane it takes two
units, one from each half of the surrogates. -/
def escapeChar (c : Char) : List Char :=
  if c = '"' then ['\\', '"']
  else if c = '\\' then ['\\', '\\']
  else if c = '\n' then ['\\', 'n']
  else if c = '\r' then ['\\', 'r']
  else if c = '\t' then ['\\', 't']
  else if c.toNat = 0x08 then ['\\', 'b']
  else if c.toNat = 0x0C then ['\\', 'f']
  else if 0x20 ≤ c.toNat ∧ c.toNat < 0x7F then [c]
  else if c.toNat < 0x10000 then escapeUnit c.toNat
  else
    escapeUnit (0xD800 + (c.toNat - 0x10000) / 0x400) ++
      escapeUnit (0xDC00 + (c.toNat - 0x10000) % 0x400)

def quote (contents : String) : List Char :=
  '"' :: contents.toList.flatMap escapeChar ++ ['"']

def newline (depth : Nat) : List Char :=
  '\n' :: List.replicate (2 * depth) ' '

mutual

def write (depth : Nat) : Json → List Char
  | .number value => (toString value).toList
  | .infinity => "Infinity".toList
  | .bool true => "true".toList
  | .bool false => "false".toList
  | .string contents => quote contents
  | .array [] => "[]".toList
  | .array (v :: rest) =>
    '[' :: newline (depth + 1) ++ write (depth + 1) v ++ writeElements (depth + 1) rest ++
      newline depth ++ [']']
  | .object [] => ['\x7b', '\x7d']
  | .object ((key, v) :: rest) =>
    '\x7b' :: newline (depth + 1) ++ quote key ++ ':' :: ' ' :: write (depth + 1) v ++
      writeMembers (depth + 1) rest ++ newline depth ++ ['\x7d']

def writeElements (depth : Nat) : List Json → List Char
  | [] => []
  | v :: rest => ',' :: newline depth ++ write depth v ++ writeElements depth rest

def writeMembers (depth : Nat) : List (String × Json) → List Char
  | [] => []
  | (key, v) :: rest =>
    ',' :: newline depth ++ quote key ++ ':' :: ' ' :: write depth v ++ writeMembers depth rest

end

def text (v : Json) : String := String.ofList (v.write 0)

end Json

end Crafter
