import Crafter.Proofs.JsonGrammar
import Crafter.Text.Json
import Mathlib.Data.Rat.Cast.Defs

/-! Values in JSON notation, as a reader finds them. What is written is a text of the
grammar, and it says the value: every number and every character of every string. -/
namespace Crafter

open JsonText

namespace Json

mutual

/-- What a value says that is written as JSON. -/
def value : Json → JsonValue
  | .number n => .number n
  | .infinity => .infinity
  | .bool b => .bool b
  | .string contents => .string (contents.toList.flatMap units)
  | .array elements => .array (values elements)
  | .object members => .object (memberValues members)

def values : List Json → List JsonValue
  | [] => []
  | v :: rest => v.value :: values rest

def memberValues : List (String × Json) → List (List Nat × JsonValue)
  | [] => []
  | (name, v) :: rest => (name.toList.flatMap units, v.value) :: memberValues rest

end

/-! Whole numbers. -/

theorem toDigits_head_ne_zero {n : Nat} (h : 0 < n) : (Nat.toDigits 10 n).head? ≠ some '0' := by
  induction n using Nat.strongRecOn with
  | ind n ih =>
    by_cases hsmall : n < 10
    · rw [Nat.toDigits_of_lt_base hsmall, List.head?_cons]
      intro heq
      have hzero : n = 0 := Nat.digitChar_eq_zero.mp (Option.some.inj heq)
      omega
    · -- the digits before the last one are those of a smaller number
      have hfront := ih (n / 10) (by omega) (by omega)
      obtain ⟨c, rest, hdigits⟩ := List.exists_cons_of_ne_nil (Nat.toDigits_ne_nil (n := n / 10))
      rw [Nat.toDigits_of_base_le (by decide) (by omega), hdigits]
      rwa [hdigits] at hfront

theorem whole_toDigits (n : Nat) : Whole (Nat.toDigits 10 n) where
  nonempty := Nat.toDigits_ne_nil
  digit _ hc := Nat.isDigit_of_mem_toDigits (by decide) (by decide) hc
  leading h := by
    by_cases hzero : n = 0
    · rw [hzero, Nat.toDigits_zero]
    · exact absurd h (toDigits_head_ne_zero (Nat.pos_of_ne_zero hzero))

theorem unsigned_toDigits (n : Nat) : Unsigned (Nat.toDigits 10 n) n := by
  have h := Unsigned.mk (whole_toDigits n) .none .none
  rw [natural, Nat.ofDigitChars_ten_toDigits, List.append_nil, List.append_nil, add_zero, zpow_zero,
    mul_one] at h
  exact h

/-- A whole number is written so that it is read as itself. -/
theorem numeral_toString (n : Int) : Numeral (toString n).toList n := by
  cases n with
  | ofNat n =>
    have htext : (toString (Int.ofNat n)).toList = Nat.toDigits 10 n := Nat.toList_repr
    rw [htext]
    exact .positive (unsigned_toDigits n)
  | negSucc n =>
    have htext : (toString (Int.negSucc n)).toList = '-' :: Nat.toDigits 10 (n + 1) := by
      change ("-" ++ (n + 1).repr).toList = _
      rw [String.toList_append, Nat.toList_repr]
      rfl
    rw [htext, Int.cast_negSucc]
    exact .negative (unsigned_toDigits (n + 1))

/-! Strings. -/

theorem hexadecimal_eq (width n : Nat) : Text.hexadecimal width n =
    List.replicate (width - (Nat.toDigits 16 n).length) '0' ++ Nat.toDigits 16 n := rfl

/-- The last digit of a number that is filled up with zeros. -/
theorem hexadecimal_succ (width n : Nat) :
    Text.hexadecimal (width + 2) n =
      Text.hexadecimal (width + 1) (n / 16) ++ [Nat.digitChar (n % 16)] := by
  by_cases hsmall : n < 16
  · have hfill : List.replicate (width + 1) '0' = List.replicate width '0' ++ ['0'] :=
      List.replicate_succ'
    rw [hexadecimal_eq, hexadecimal_eq, Nat.div_eq_of_lt hsmall, Nat.mod_eq_of_lt hsmall,
      Nat.toDigits_of_lt_base hsmall, Nat.toDigits_zero]
    exact congrArg (· ++ [Nat.digitChar n]) hfill
  · have hfill (length : Nat) : width + 2 - (length + 1) = width + 1 - length := by omega
    rw [hexadecimal_eq, hexadecimal_eq, Nat.toDigits_of_base_le (by decide) (by omega),
      List.length_append, List.length_singleton, hfill, List.append_assoc]

theorem code_hexadecimal {n : Nat} (h : n < 0x10000) : Code (Text.hexadecimal 4 n) n := by
  have hdigit : ∀ d < 16, (Nat.digitChar d, d) ∈ hexDigits := by decide
  have hone : Text.hexadecimal 1 (n / 16 / 16 / 16) = [Nat.digitChar (n / 16 / 16 / 16)] := by
    rw [Text.hexadecimal, Nat.toDigits_of_lt_base (by omega)]
    rfl
  rw [hexadecimal_succ, hexadecimal_succ, hexadecimal_succ, hone]
  have hcode := Code.mk (hdigit (n / 16 / 16 / 16) (by omega))
    (hdigit (n / 16 / 16 % 16) (by omega)) (hdigit (n / 16 % 16) (by omega))
    (hdigit (n % 16) (by omega))
  have hvalue : 0x1000 * (n / 16 / 16 / 16) + 0x100 * (n / 16 / 16 % 16) + 0x10 * (n / 16 % 16) +
      n % 16 = n := by
    omega
  rw [hvalue] at hcode
  exact hcode

theorem toNat_scalar (c : Char) :
    c.toNat < 0xD800 ∨ 0xDFFF < c.toNat ∧ c.toNat < 0x110000 := c.valid

theorem units_of_lt {c : Char} (h : c.toNat < 0x10000) : units c = [c.toNat] := if_pos h

theorem chars_escapeUnit {u : Nat} (h : u < 0x10000) {cs : List Char} {us : List Nat}
    (rest : Chars cs us) : Chars (escapeUnit u ++ cs) (u :: us) :=
  .code (code_hexadecimal h) rest

/-- A character is written so that it is read as itself. -/
theorem chars_escapeChar (c : Char) {cs : List Char} {us : List Nat} (rest : Chars cs us) :
    Chars (escapeChar c ++ cs) (units c ++ us) := by
  have short {e : Char × Nat} (known : e ∈ escapes) (hc : c.toNat = e.2) :
      Chars ('\\' :: e.1 :: cs) (units c ++ us) := by
    have hsmall : ∀ e ∈ escapes, e.2 < 0x80 := by decide
    have hlt : c.toNat < 0x80 := hc ▸ hsmall e known
    rw [units_of_lt (by omega), hc]
    exact .escape known rest
  unfold escapeChar
  split
  · next h => exact short (e := ('"', 0x22)) (by decide) (by rw [h]; rfl)
  split
  · next h => exact short (e := ('\\', 0x5C)) (by decide) (by rw [h]; rfl)
  split
  · next h => exact short (e := ('n', 0x0A)) (by decide) (by rw [h]; rfl)
  split
  · next h => exact short (e := ('r', 0x0D)) (by decide) (by rw [h]; rfl)
  split
  · next h => exact short (e := ('t', 0x09)) (by decide) (by rw [h]; rfl)
  split
  · next h => exact short (e := ('b', 0x08)) (by decide) h
  split
  · next h => exact short (e := ('f', 0x0C)) (by decide) h
  split
  · next hquote hbackslash _ _ _ _ _ h => exact .plain h.1 hquote hbackslash rest
  split
  · next h =>
    rw [units_of_lt h]
    exact chars_escapeUnit h rest
  · next h =>
    have hscalar := toNat_scalar c
    have hhigh : 0xD800 + (c.toNat - 0x10000) / 0x400 < 0x10000 := by omega
    have hlow : 0xDC00 + (c.toNat - 0x10000) % 0x400 < 0x10000 := by omega
    rw [units, if_neg h, List.append_assoc]
    exact chars_escapeUnit hhigh (chars_escapeUnit hlow rest)

theorem quoted_quote (contents : String) :
    Quoted (quote contents) (contents.toList.flatMap units) := by
  apply Quoted.mk
  induction contents.toList with
  | nil => exact .nil
  | cons c cs ih =>
    rw [List.flatMap_cons, List.flatMap_cons]
    exact chars_escapeChar c ih

/-! Arrays, objects and values. -/

theorem space_newline (depth : Nat) : Space (newline depth) := by
  apply space_cons (by decide)
  intro c hc
  rw [List.eq_of_mem_replicate hc]
  decide

theorem write_array_cons (depth : Nat) (v : Json) (rest : List Json) :
    write depth (.array (v :: rest)) = '[' :: (newline (depth + 1) ++ (write (depth + 1) v ++
      (writeElements (depth + 1) rest ++ newline depth)) ++ [']']) := by
  change '[' :: newline (depth + 1) ++ write (depth + 1) v ++ writeElements (depth + 1) rest ++
    newline depth ++ [']'] = _
  simp only [List.append_assoc, List.cons_append]

theorem write_object_cons (depth : Nat) (name : String) (v : Json)
    (rest : List (String × Json)) :
    write depth (.object ((name, v) :: rest)) =
      '\x7b' :: (newline (depth + 1) ++ (quote name ++ ':' :: ' ' :: (write (depth + 1) v ++
        (writeMembers (depth + 1) rest ++ newline depth))) ++ ['\x7d']) := by
  change '\x7b' :: newline (depth + 1) ++ quote name ++ ':' :: ' ' :: write (depth + 1) v ++
    writeMembers (depth + 1) rest ++ newline depth ++ ['\x7d'] = _
  simp only [List.append_assoc, List.cons_append]

theorem member_of_value (depth : Nat) {name cs after : List Char} {us : List Nat} {v : JsonValue}
    (hname : Quoted name us) (hvalue : Value cs v) (hafter : Space after) :
    Member Value (newline depth ++ (name ++ ':' :: ' ' :: (cs ++ after))) (us, v) := by
  have hblank : Space [' '] := space_cons (by decide) space_nil
  have h := Member.mk (.mk (space_newline depth) hname space_nil) (.mk hblank hvalue hafter)
  simpa only [List.append_assoc, List.cons_append, List.nil_append] using h

mutual

/-- What is written for a value is a text of the grammar, and it says the value. -/
theorem value_write (depth : Nat) : ∀ v : Json, Value (v.write depth) v.value
  | .number n => .number (numeral_toString n)
  | .infinity => by
    have hword : "Infinity".toList = ['I', 'n', 'f', 'i', 'n', 'i', 't', 'y'] := by simp
    change Value "Infinity".toList .infinity
    rw [hword]
    exact .infinity
  | .bool true => by
    have hword : "true".toList = ['t', 'r', 'u', 'e'] := by simp
    change Value "true".toList (.bool true)
    rw [hword]
    exact .true
  | .bool false => by
    have hword : "false".toList = ['f', 'a', 'l', 's', 'e'] := by simp
    change Value "false".toList (.bool false)
    rw [hword]
    exact .false
  | .string contents => .string (quoted_quote contents)
  | .array [] => .array (.empty space_nil)
  | .array (v :: rest) => by
    have hitems := separated_writeElements (depth + 1) rest (value_write (depth + 1) v)
      (space_newline depth)
    rw [write_array_cons]
    exact .array (.items hitems)
  | .object [] => .object (.empty space_nil)
  | .object ((name, v) :: rest) => by
    have hitems := separated_writeMembers (depth + 1) rest (quoted_quote name)
      (value_write (depth + 1) v) (space_newline depth)
    rw [write_object_cons]
    exact .object (.items hitems)

/-- Further elements follow one that is already written. -/
theorem separated_writeElements (depth : Nat) : ∀ (rest : List Json) {cs after : List Char}
    {v : JsonValue}, Value cs v → Space after →
    Separated (Element Value) (newline depth ++ (cs ++ (writeElements depth rest ++ after)))
      (v :: values rest)
  | [], cs, after, v, hvalue, hafter => by
    rw [writeElements, values, List.nil_append]
    exact .last (.mk (space_newline depth) hvalue hafter)
  | w :: rest, cs, after, v, hvalue, hafter => by
    have hfirst := Element.mk (space_newline depth) hvalue space_nil
    have hmore := separated_writeElements depth rest (value_write depth w) hafter
    have h := Separated.cons hfirst hmore
    simpa only [writeElements, values, List.append_assoc, List.cons_append, List.append_nil,
      List.nil_append] using h

/-- Further members follow one that is already written. -/
theorem separated_writeMembers (depth : Nat) : ∀ (rest : List (String × Json))
    {name cs after : List Char} {us : List Nat} {v : JsonValue}, Quoted name us → Value cs v →
    Space after → Separated (Member Value)
      (newline depth ++ (name ++ ':' :: ' ' :: (cs ++ (writeMembers depth rest ++ after))))
      ((us, v) :: memberValues rest)
  | [], name, cs, after, us, v, hname, hvalue, hafter =>
    .last (member_of_value depth hname hvalue hafter)
  | (other, w) :: rest, name, cs, after, us, v, hname, hvalue, hafter => by
    have hfirst := member_of_value depth hname hvalue space_nil
    have hmore := separated_writeMembers depth rest (quoted_quote other) (value_write depth w)
      hafter
    have h := Separated.cons hfirst hmore
    simpa only [writeMembers, memberValues, List.append_assoc, List.cons_append, List.append_nil,
      List.nil_append] using h

end

/-- The text of a value, on lines of its own, says the value. -/
theorem decodes_printed (v : Json) : Decodes (Text.printed [v.text]) v.value := by
  have hfeed : Space ['\n'] := space_cons (by decide) space_nil
  have htext : (Text.printed [v.text]).toList = [] ++ (v.write 0 ++ ['\n']) := by
    rw [Text.printed, List.map_singleton, String.join_cons, String.join_nil, String.append_empty,
      String.toList_append, text, String.toList_ofList]
    rfl
  unfold Decodes
  rw [htext]
  exact .mk space_nil (value_write 0 v) hfeed

/-! No two values that are written say the same. -/

theorem units_append_inj {c d : Char} {x y : List Nat} (h : units c ++ x = units d ++ y) :
    c = d ∧ x = y := by
  have hc := toNat_scalar c
  have hd := toNat_scalar d
  unfold units at h
  split at h
  · split at h
    · simp only [List.cons_append, List.nil_append, List.cons.injEq] at h
      exact ⟨Char.toNat_inj.mp h.1, h.2⟩
    · simp only [List.cons_append, List.nil_append, List.cons.injEq] at h
      omega
  · split at h
    · simp only [List.cons_append, List.nil_append, List.cons.injEq] at h
      omega
    · simp only [List.cons_append, List.nil_append, List.cons.injEq] at h
      exact ⟨Char.toNat_inj.mp (by omega), h.2.2⟩

theorem flatMap_units_injective {cs ds : List Char} (h : cs.flatMap units = ds.flatMap units) :
    cs = ds := by
  have units_ne_nil (c : Char) : units c ≠ [] := by
    unfold units
    split <;> exact List.cons_ne_nil _ _
  induction cs generalizing ds with
  | nil =>
    cases ds with
    | nil => rfl
    | cons d ds =>
      rw [List.flatMap_nil, List.flatMap_cons] at h
      exact absurd (List.append_eq_nil_iff.mp h.symm).1 (units_ne_nil d)
  | cons c cs ih =>
    cases ds with
    | nil =>
      rw [List.flatMap_nil, List.flatMap_cons] at h
      exact absurd (List.append_eq_nil_iff.mp h).1 (units_ne_nil c)
    | cons d ds =>
      rw [List.flatMap_cons, List.flatMap_cons] at h
      obtain ⟨rfl, hrest⟩ := units_append_inj h
      rw [ih hrest]

theorem string_units_injective {a b : String}
    (h : a.toList.flatMap units = b.toList.flatMap units) : a = b :=
  String.toList_inj.mp (flatMap_units_injective h)

mutual

theorem value_injective : ∀ {v w : Json}, v.value = w.value → v = w
  | .number m, w, h => by
    cases w with
    | number n => rw [Rat.intCast_inj.mp (JsonValue.number.inj h)]
    | _ => cases h
  | .infinity, w, h => by
    cases w with
    | infinity => rfl
    | _ => cases h
  | .bool a, w, h => by
    cases w with
    | bool b => rw [JsonValue.bool.inj h]
    | _ => cases h
  | .string a, w, h => by
    cases w with
    | string b => rw [string_units_injective (JsonValue.string.inj h)]
    | _ => cases h
  | .array vs, w, h => by
    cases w with
    | array ws => rw [values_injective (JsonValue.array.inj h)]
    | _ => cases h
  | .object ms, w, h => by
    cases w with
    | object ns => rw [memberValues_injective (JsonValue.object.inj h)]
    | _ => cases h

theorem values_injective : ∀ {vs ws : List Json}, values vs = values ws → vs = ws
  | [], [], _ => rfl
  | [], _ :: _, h => by cases h
  | _ :: _, [], h => by cases h
  | v :: vs, w :: ws, h => by
    obtain ⟨hv, hvs⟩ := List.cons.inj h
    rw [value_injective hv, values_injective hvs]

theorem memberValues_injective : ∀ {ms ns : List (String × Json)},
    memberValues ms = memberValues ns → ms = ns
  | [], [], _ => rfl
  | [], _ :: _, h => by cases h
  | _ :: _, [], h => by cases h
  | (name, v) :: ms, (name', w) :: ns, h => by
    obtain ⟨hfirst, hms⟩ := List.cons.inj h
    obtain ⟨hname, hv⟩ := Prod.mk.inj hfirst
    rw [string_units_injective hname, value_injective hv, memberValues_injective hms]

end

end Json

end Crafter
