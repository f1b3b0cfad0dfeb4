import Crafter.Text.Character

/-! Whole numbers as people type them: blanks around them, a sign, digits of
any script, and single underscores between digits. -/
namespace Crafter.Text

/-- The characters that may stand around a number: the blanks, except the four
separators of the ASCII control characters. -/
def isNumeralPadding (c : Char) : Bool :=
  isBlank c && !inRanges [(0x1C, 0x1F)] c.toNat

/-- The digits of a numeral, first to last, or `none` if it is none. Between
two digits one underscore may stand; `started` tells that a digit came just
before. -/
def numeralDigits? (started : Bool) : List Char → Option (List Nat)
  | [] => if started then some [] else none
  | c :: cs =>
    match decimalDigit? c with
    | some d => (numeralDigits? true cs).map (d :: ·)
    | none => if c = '_' ∧ started then numeralDigits? false cs else none

def maxNumeralDigits : Nat := 4300

def natOfNumeral? (cs : List Char) : Option Nat :=
  match numeralDigits? false cs with
  | none => none
  | some digits =>
    if maxNumeralDigits < digits.length then none
    else some (digits.foldl (fun n d => 10 * n + d) 0)

def intOfNumeral? (text : String) : Option Int :=
  match trimBy isNumeralPadding text.toList with
  | '-' :: cs => (natOfNumeral? cs).map fun n => -(n : Int)
  | '+' :: cs => (natOfNumeral? cs).map fun n => (n : Int)
  | cs => (natOfNumeral? cs).map fun n => (n : Int)

end Crafter.Text
