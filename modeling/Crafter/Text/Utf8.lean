/-! Text from bytes in UTF-8. The first sequence of bytes that is no character
is reported, with the longest part of it that could have begun one. -/
namespace Crafter.Text.Utf8

inductive Defect where
  | badStart
  | badContinuation
  | truncated
deriving DecidableEq, Repr

def Defect.text : Defect → String
  | .badStart => "invalid start byte"
  | .badContinuation => "invalid continuation byte"
  | .truncated => "unexpected end of data"

structure Fault where
  defect : Defect
  byte : UInt8
  offset : Nat
  length : Nat
deriving DecidableEq, Repr

/-- How a character goes on after its first byte: the bits that this byte
gives, the bounds of the second byte, and the number of bytes after it. -/
structure Lead where
  bits : Nat
  low : UInt8
  high : UInt8
  extra : Nat

/-- What a first byte announces. The bounds of the second byte leave out
overlong forms, surrogates and all that lies beyond the last code point. -/
def lead? (b : UInt8) : Option Lead :=
  if 0xC2 ≤ b ∧ b ≤ 0xDF then some ⟨b.toNat - 0xC0, 0x80, 0xBF, 0⟩
  else if b = 0xE0 then some ⟨0, 0xA0, 0xBF, 1⟩
  else if b = 0xED then some ⟨0x0D, 0x80, 0x9F, 1⟩
  else if 0xE1 ≤ b ∧ b ≤ 0xEF then some ⟨b.toNat - 0xE0, 0x80, 0xBF, 1⟩
  else if b = 0xF0 then some ⟨0, 0x90, 0xBF, 2⟩
  else if b = 0xF4 then some ⟨4, 0x80, 0x8F, 2⟩
  else if 0xF1 ≤ b ∧ b ≤ 0xF3 then some ⟨b.toNat - 0xF0, 0x80, 0xBF, 2⟩
  else none

structure Decoded where
  code : Nat
  size : Nat
  rest : List UInt8

/-- A character, or the defect met instead, with the number of bytes that could
still have begun a character. -/
abbrev Attempt := Except (Defect × Nat) Decoded

/-- The bytes of a character after its first one, of which `taken` have been
read; the next one lies between the bounds. -/
def continue? (code taken : Nat) (low high : UInt8) : Nat → List UInt8 → Attempt
  | _, [] => .error (.truncated, taken)
  | extra, b :: rest =>
    if b < low ∨ high < b then .error (.badContinuation, taken)
    else
      match extra with
      | 0 => .ok ⟨64 * code + (b.toNat - 0x80), taken + 1, rest⟩
      | extra + 1 => continue? (64 * code + (b.toNat - 0x80)) (taken + 1) 0x80 0xBF extra rest

def character (b : UInt8) (rest : List UInt8) : Attempt :=
  if b < 0x80 then .ok ⟨b.toNat, 1, rest⟩
  else
    match lead? b with
    | none => .error (.badStart, 1)
    | some lead => continue? lead.bits 1 lead.low lead.high lead.extra rest

/-- The bytes that were read and the bytes after them are all there were. -/
theorem continue?_size {code taken extra : Nat} {low high : UInt8} {bytes : List UInt8}
    {d : Decoded} (h : continue? code taken low high extra bytes = .ok d) :
    d.size + d.rest.length = taken + bytes.length ∧ taken < d.size := by
  fun_induction continue? code taken low high extra bytes with
  | case1 => cases h
  | case2 => cases h
  | case3 =>
    injection h with h
    subst h
    simp only [List.length_cons]
    omega
  | case4 _ _ _ _ _ _ _ _ ih =>
    have := ih h
    simp only [List.length_cons]
    omega

theorem character_size {b : UInt8} {bytes : List UInt8} {d : Decoded}
    (h : character b bytes = .ok d) : d.size + d.rest.length = bytes.length + 1 ∧ 0 < d.size := by
  unfold character at h
  split at h
  · cases h; simp only; omega
  · split at h
    · simp at h
    · have := continue?_size h
      omega

def decodeFrom (offset : Nat) : List UInt8 → Except Fault (List Char)
  | [] => .ok []
  | b :: bytes =>
    match h : character b bytes with
    | .error (defect, length) => .error ⟨defect, b, offset, length⟩
    | .ok d =>
      have := character_size h
      match decodeFrom (offset + d.size) d.rest with
      | .error fault => .error fault
      | .ok cs => .ok (Char.ofNat d.code :: cs)
termination_by bytes => bytes.length
decreasing_by simp only [List.length_cons]; omega

def decode (bytes : List UInt8) : Except Fault (List Char) := decodeFrom 0 bytes

end Crafter.Text.Utf8
