/-! Texts as lists of lines. -/
namespace Crafter.Text

/-- The pieces between the line feeds; there is one more piece than feeds. -/
def splitLines : List Char → List (List Char)
  | [] => [[]]
  | c :: cs =>
    if c = '\n' then [] :: splitLines cs
    else match splitLines cs with
      | [] => [[c]]
      | l :: ls => (c :: l) :: ls

def linesOf (text : String) : List String :=
  (splitLines text.toList).map String.ofList

/-- The lines that are read from an input, one at a time: a line feed at the
very end closes the last line and opens no further one. -/
def inputLines (text : String) : List String :=
  let ls := linesOf text
  if ls.getLast? = some "" then ls.dropLast else ls

def joinLines (ls : List String) : String :=
  "\n".intercalate ls

def printed (ls : List String) : String :=
  String.join (ls.map (· ++ "\n"))

/-- Every carriage return, alone or before a line feed, becomes a line feed. -/
def unifyLineEnds : List Char → List Char
  | [] => []
  | '\r' :: '\n' :: cs => '\n' :: unifyLineEnds cs
  | '\r' :: cs => '\n' :: unifyLineEnds cs
  | c :: cs => c :: unifyLineEnds cs

/-- A numeral written right-aligned in `width` columns; a longer one keeps all
its digits. -/
def alignRight (width : Nat) (numeral : String) : String :=
  String.ofList (List.replicate (width - numeral.length) ' ') ++ numeral

def occursIn (part : List Char) : List Char → Bool
  | [] => part.isEmpty
  | c :: cs => part.isPrefixOf (c :: cs) || occursIn part cs

end Crafter.Text
