/-! Whole numbers as they are written: runs of the digits 0 to 9. -/
namespace Crafter

def digitValue (c : Char) : Nat := c.toNat - '0'.toNat

def digitsValue (digits : List Char) : Nat :=
  digits.foldl (fun n c => 10 * n + digitValue c) 0

inductive Literal where
  | exact (value : Nat)
  | infinite
deriving DecidableEq, Repr, Inhabited

namespace Literal

/-- The least number that rounds to infinity in double precision: halfway
between the greatest finite double and the next power of two. -/
def overflow : Nat := Nat.pow 2 1024 - Nat.pow 2 970

def maxDigits : Nat := 4300

/-- The value of a digit run, or `none` if it is finite and yet written with
more digits than an exact number may have. -/
def ofDigits? (digits : List Char) : Option Literal :=
  let value := digitsValue digits
  if overflow ≤ value then some .infinite
  else if maxDigits < digits.length then none
  else some (.exact value)

def text : Literal → String
  | .exact value => toString value
  | .infinite => "inf"

end Literal

end Crafter
