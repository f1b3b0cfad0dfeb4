/-! Double precision numbers as integers times powers of two. -/
namespace Crafter.Number

def infinityBits : Nat := 2047 * Nat.pow 2 52

/-- A quotient by a power of two, rounded to the nearest whole number; a tie
goes to the even one. -/
def shiftRounding (n shift : Nat) : Nat :=
  let unit := Nat.pow 2 shift
  let below := n % unit
  let quotient := n / unit
  if 2 * below < unit then quotient
  else if 2 * below = unit then quotient + quotient % 2
  else quotient + 1

/-- The bits of the double nearest to a whole number, ties to even. The
significand is rounded to 53 bits; a carry out of it moves into the exponent,
up to infinity. -/
def bitsOfNat (n : Nat) : Nat :=
  if n = 0 then 0
  else
    let top := n.log2
    if 1024 ≤ top then infinityBits
    else (top + 1022) * Nat.pow 2 52 +
      (if top ≤ 52 then n * Nat.pow 2 (52 - top) else shiftRounding n (top - 52))

def ofNat (n : Nat) : Float :=
  Float.ofBits (UInt64.ofNat (bitsOfNat n))

/-- The size of a finite double: `significand * 2 ^ exponent`. The double below
is nearer than the one above exactly if `narrowBelow`. -/
structure Magnitude where
  significand : Nat
  exponent : Int
  narrowBelow : Bool
deriving DecidableEq, Repr

inductive View where
  | nan
  | infinite (negative : Bool)
  | finite (negative : Bool) (size : Magnitude)
deriving DecidableEq, Repr

def View.ofBits (bits : Nat) : View :=
  let negative := decide (bits / Nat.pow 2 63 % 2 = 1)
  let exponent : Nat := bits / Nat.pow 2 52 % 2048
  let fraction : Nat := bits % Nat.pow 2 52
  if exponent = 2047 then
    if fraction = 0 then .infinite negative else .nan
  else if exponent = 0 then .finite negative ⟨fraction, -1074, false⟩
  else .finite negative
    ⟨Nat.pow 2 52 + fraction, (exponent : Int) - 1075, decide (fraction = 0 ∧ 1 < exponent)⟩

def view (x : Float) : View :=
  if x.isNaN then .nan else View.ofBits x.toBits.toNat

end Crafter.Number
