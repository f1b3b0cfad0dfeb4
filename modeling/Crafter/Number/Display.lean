import Crafter.Number.Shortest

/-! How numbers are shown. Whole numbers below 10^21 are shown with all their
digits; of any other number the shortest decimal is shown, positionally from
10^-4 up to 10^16 and with an exponent beyond. -/
namespace Crafter.Number

def Magnitude.whole? (m : Magnitude) : Option Nat :=
  if 0 ≤ m.exponent then some (m.significand * Nat.pow 2 m.exponent.toNat)
  else if m.significand % Nat.pow 2 (-m.exponent).toNat = 0 then
    some (m.significand / Nat.pow 2 (-m.exponent).toNat)
  else none

def digitChars (n : Nat) : List Char := (toString n).toList

def zeros (n : Nat) : List Char := List.replicate n '0'

def dropTrailingZeros (digits : List Char) : List Char :=
  (digits.reverse.dropWhile (· = '0')).reverse

/-- Digits with a point after the first `point` of them; zeros fill up what is
missing on either side. -/
def positional (digits : List Char) (point : Int) : List Char :=
  if point ≤ 0 then '0' :: '.' :: zeros (-point).toNat ++ digits
  else if digits.length ≤ point then
    digits ++ zeros (point.toNat - digits.length) ++ ['.', '0']
  else digits.take point.toNat ++ '.' :: digits.drop point.toNat

/-- Digits with a point after the first one, and the power of ten to multiply
by, with its sign and at least two digits. -/
def scientific (digits : List Char) (exponent : Int) : List Char :=
  let power := digitChars exponent.natAbs
  (match digits with
    | first :: second :: more => first :: '.' :: second :: more
    | _ => digits) ++
  'e' :: (if exponent < 0 then '-' else '+') :: zeros (2 - power.length) ++ power

def Decimal.write (d : Decimal) : List Char :=
  let all := digitChars d.digits
  let digits := dropTrailingZeros all
  let point := (all.length : Int) + d.exponent
  if -4 < point ∧ point ≤ 16 then positional digits point else scientific digits (point - 1)

/-- From this size on, whole numbers are shown like all others. -/
def wholeLimit : Nat := Nat.pow 10 21

def Magnitude.display (m : Magnitude) : String :=
  match m.whole? with
  | some n => if n < wholeLimit then toString n else String.ofList m.shortest.write
  | none => String.ofList m.shortest.write

def display (x : Float) : String :=
  match view x with
  | .nan => "NaN"
  | .infinite false => "Infinity"
  | .infinite true => "-Infinity"
  | .finite negative size =>
    if negative ∧ size.significand ≠ 0 then "-" ++ size.display else size.display

end Crafter.Number
