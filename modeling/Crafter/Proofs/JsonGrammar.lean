import Crafter.Proofs.Longest
import Mathlib.Algebra.Field.Rat

/-! The grammar of JSON texts, with the word `Infinity` as a further value, and what
the texts of the grammar say. No text says two things. -/
namespace Crafter

/-- What a JSON text says. A string is a sequence of 16-bit units, so that it may also
hold halves of surrogate pairs; the members of an object keep their order. -/
inductive JsonValue where
  | null
  | bool (value : Bool)
  | number (value : ℚ)
  | infinity
  | string (units : List Nat)
  | array (elements : List JsonValue)
  | object (members : List (List Nat × JsonValue))

namespace JsonText

/-! Numbers. -/

/-- A run of digits. -/
structure Digits (cs : List Char) : Prop where
  nonempty : cs ≠ []
  digit : ∀ c ∈ cs, c.isDigit = true

/-- The number that a run of digits is in decimal notation. -/
def natural (cs : List Char) : Nat := Nat.ofDigitChars 10 cs 0

/-- A whole number does not begin with a zero, except for the number zero. -/
structure Whole (cs : List Char) : Prop extends Digits cs where
  leading : cs.head? = some '0' → cs = ['0']

inductive Fraction : List Char → ℚ → Prop where
  | none : Fraction [] 0
  | some {cs : List Char} (digits : Digits cs) :
      Fraction ('.' :: cs) (natural cs / 10 ^ cs.length)

/-- Digits after a sign, which may be missing. -/
inductive Signed : List Char → ℤ → Prop where
  | none {cs : List Char} (digits : Digits cs) : Signed cs (natural cs)
  | plus {cs : List Char} (digits : Digits cs) : Signed ('+' :: cs) (natural cs)
  | minus {cs : List Char} (digits : Digits cs) : Signed ('-' :: cs) (-natural cs)

inductive Exponent : List Char → ℤ → Prop where
  | none : Exponent [] 0
  | some {mark : Char} {cs : List Char} {e : ℤ} (known : mark ∈ ['e', 'E']) (power : Signed cs e) :
      Exponent (mark :: cs) e

inductive Unsigned : List Char → ℚ → Prop where
  | mk {whole fraction exponent : List Char} {f : ℚ} {e : ℤ} (hwhole : Whole whole)
      (hfraction : Fraction fraction f) (hexponent : Exponent exponent e) :
      Unsigned (whole ++ (fraction ++ exponent)) ((natural whole + f) * 10 ^ e)

inductive Numeral : List Char → ℚ → Prop where
  | positive {cs : List Char} {q : ℚ} (size : Unsigned cs q) : Numeral cs q
  | negative {cs : List Char} {q : ℚ} (size : Unsigned cs q) : Numeral ('-' :: cs) (-q)

/-! Strings. -/

/-- The 16-bit units of a character: itself, or a pair of surrogates. -/
def units (c : Char) : List Nat :=
  if c.toNat < 0x10000 then [c.toNat]
  else [0xD800 + (c.toNat - 0x10000) / 0x400, 0xDC00 + (c.toNat - 0x10000) % 0x400]

/-- The characters after a backslash, and the units that they stand for. -/
def escapes : List (Char × Nat) :=
  [('"', 0x22), ('\\', 0x5C), ('/', 0x2F), ('b', 0x08), ('f', 0x0C), ('n', 0x0A), ('r', 0x0D),
    ('t', 0x09)]

/-- The digits to base 16. -/
def hexDigits : List (Char × Nat) :=
  [('0', 0), ('1', 1), ('2', 2), ('3', 3), ('4', 4), ('5', 5), ('6', 6), ('7', 7), ('8', 8),
    ('9', 9), ('a', 10), ('b', 11), ('c', 12), ('d', 13), ('e', 14), ('f', 15), ('A', 10),
    ('B', 11), ('C', 12), ('D', 13), ('E', 14), ('F', 15)]

/-- A unit by its four digits to base 16. -/
inductive Code : List Char → Nat → Prop where
  | mk {a b c d : Char × Nat} (ha : a ∈ hexDigits) (hb : b ∈ hexDigits) (hc : c ∈ hexDigits)
      (hd : d ∈ hexDigits) :
      Code [a.1, b.1, c.1, d.1] (0x1000 * a.2 + 0x100 * b.2 + 0x10 * c.2 + d.2)

/-- What stands between the quotes of a string. -/
inductive Chars : List Char → List Nat → Prop where
  | nil : Chars [] []
  | plain {c : Char} {cs : List Char} {us : List Nat} (high : 0x20 ≤ c.toNat) (quote : c ≠ '"')
      (backslash : c ≠ '\\') (rest : Chars cs us) : Chars (c :: cs) (units c ++ us)
  | escape {e : Char × Nat} {cs : List Char} {us : List Nat} (known : e ∈ escapes)
      (rest : Chars cs us) : Chars ('\\' :: e.1 :: cs) (e.2 :: us)
  | code {code : List Char} {u : Nat} {cs : List Char} {us : List Nat} (hcode : Code code u)
      (rest : Chars cs us) : Chars ('\\' :: 'u' :: (code ++ cs)) (u :: us)

inductive Quoted : List Char → List Nat → Prop where
  | mk {cs : List Char} {us : List Nat} (chars : Chars cs us) : Quoted ('"' :: (cs ++ ['"'])) us

/-! Arrays, objects and values. -/

def blanks : List Char := [' ', '\t', '\n', '\r']

/-- White space. -/
def Space (cs : List Char) : Prop := ∀ c ∈ cs, c ∈ blanks

variable {α : Type}

/-- A value with the white space around it. -/
inductive Element (Value : List Char → α → Prop) : List Char → α → Prop where
  | mk {before cs after : List Char} {v : α} (hbefore : Space before) (value : Value cs v)
      (hafter : Space after) : Element Value (before ++ (cs ++ after)) v

/-- A member of an object: its name, a colon and its value. -/
inductive Member (Value : List Char → α → Prop) : List Char → List Nat × α → Prop where
  | mk {name cs : List Char} {us : List Nat} {v : α} (hname : Element Quoted name us)
      (value : Element Value cs v) : Member Value (name ++ ':' :: cs) (us, v)

/-- Items with commas between them. -/
inductive Separated (Item : List Char → α → Prop) : List Char → List α → Prop where
  | last {cs : List Char} {v : α} (item : Item cs v) : Separated Item cs [v]
  | cons {cs rest : List Char} {v : α} {vs : List α} (item : Item cs v)
      (more : Separated Item rest vs) : Separated Item (cs ++ ',' :: rest) (v :: vs)

/-- What follows an opening bracket, with the closing one. -/
inductive Listed (close : Char) (Item : List Char → α → Prop) : List Char → List α → Prop where
  | empty {cs : List Char} (space : Space cs) : Listed close Item (cs ++ [close]) []
  | items {cs : List Char} {vs : List α} (separated : Separated Item cs vs) :
      Listed close Item (cs ++ [close]) vs

/-- The texts that are values, and what they say. -/
inductive Value : List Char → JsonValue → Prop where
  | null : Value ['n', 'u', 'l', 'l'] .null
  | true : Value ['t', 'r', 'u', 'e'] (.bool true)
  | false : Value ['f', 'a', 'l', 's', 'e'] (.bool false)
  | infinity : Value ['I', 'n', 'f', 'i', 'n', 'i', 't', 'y'] .infinity
  | number {cs : List Char} {q : ℚ} (numeral : Numeral cs q) : Value cs (.number q)
  | string {cs : List Char} {us : List Nat} (quoted : Quoted cs us) : Value cs (.string us)
  | array {cs : List Char} {vs : List JsonValue} (elements : Listed ']' (Element Value) cs vs) :
      Value ('[' :: cs) (.array vs)
  | object {cs : List Char} {ms : List (List Nat × JsonValue)}
      (members : Listed '\x7d' (Member Value) cs ms) : Value ('\x7b' :: cs) (.object ms)

/-- The text says the value, and nothing else stands in it but white space. -/
def Decodes (text : String) (v : JsonValue) : Prop := Element Value text.toList v

/-! A text of the grammar says one thing. For texts inside others this takes in that
they show where they end. -/

/-- Texts of a kind that are shorter than a bound show where they end and what they
say, if what follows is of a given sort. -/
def Told (P : List Char → α → Prop) (After : List Char → Prop) (bound : Nat) : Prop :=
  ∀ ⦃u v : List Char⦄ ⦃a b : α⦄ ⦃x y : List Char⦄, u.length < bound → P u a → P v b →
    After x → After y → u ++ x = v ++ y → u = v ∧ a = b

def closers : List Char := [',', ':', ']', '\x7d']

/-- What follows is the end of something that a value stands in, or nothing. -/
def Closes (x : List Char) : Prop := ∀ c ∈ x.head?, c ∈ closers

/-- What follows may also be white space. -/
def Stops (x : List Char) : Prop := ∀ c ∈ x.head?, c ∈ blanks ++ closers

/-- What follows does not begin with white space. -/
def Solid (x : List Char) : Prop := ∀ c ∈ x.head?, c ∉ blanks

theorem space_nil : Space [] := by
  intro c hc
  cases hc

theorem space_cons {c : Char} (hc : c ∈ blanks) {cs : List Char} (h : Space cs) :
    Space (c :: cs) :=
  List.forall_mem_cons.mpr ⟨hc, h⟩

theorem closes_nil : Closes [] := by
  intro c hc
  cases hc

theorem closes_cons {c : Char} (h : c ∈ closers) (x : List Char) : Closes (c :: x) := by
  rintro _ ⟨⟩
  exact h

theorem Closes.solid {x : List Char} (h : Closes x) : Solid x := by
  have hdisjoint : ∀ c ∈ closers, c ∉ blanks := by simp [closers, blanks]
  intro c hc
  exact hdisjoint c (h c hc)

theorem stops_space_append {space x : List Char} (hspace : Space space) (hx : Closes x) :
    Stops (space ++ x) := by
  intro c hc
  cases space with
  | nil => exact List.mem_append_right blanks (hx c hc)
  | cons d space =>
    cases hc
    exact List.mem_append_left closers (hspace c List.mem_cons_self)

theorem space_append_inj {s t x y : List Char} (hs : Space s) (ht : Space t) (hx : Solid x)
    (hy : Solid y) (h : s ++ x = t ++ y) : s = t ∧ x = y := by
  have inside {s : List Char} (hs : Space s) : ∀ c ∈ s, decide (c ∈ blanks) = true :=
    fun c hc => decide_eq_true (hs c hc)
  have outside {x : List Char} (hx : Solid x) : ∀ c ∈ x.head?, decide (c ∈ blanks) = false :=
    fun c hc => decide_eq_false (hx c hc)
  exact append_inj_of_stop (inside hs) (outside hx) (inside ht) (outside hy) h

/-! Numbers. -/

theorem digits_append_inj {ds es x y : List Char} (hds : Digits ds) (hes : Digits es)
    (hx : ∀ c ∈ x.head?, c.isDigit = false) (hy : ∀ c ∈ y.head?, c.isDigit = false)
    (h : ds ++ x = es ++ y) : ds = es ∧ x = y :=
  append_inj_of_stop hds.digit hx hes.digit hy h

theorem digits_cons {cs : List Char} (h : Digits cs) :
    ∃ c rest, cs = c :: rest ∧ c.isDigit = true := by
  obtain ⟨c, rest, rfl⟩ := List.exists_cons_of_ne_nil h.nonempty
  exact ⟨c, rest, rfl, h.digit c List.mem_cons_self⟩

theorem not_digits_cons {c : Char} {cs : List Char} (hc : c.isDigit = false) :
    ¬ Digits (c :: cs) := by
  intro h
  have hdigit := h.digit c List.mem_cons_self
  rw [hc] at hdigit
  cases hdigit

theorem signed_functional {cs : List Char} {m n : ℤ} (hm : Signed cs m) (hn : Signed cs n) :
    m = n := by
  cases hm with
  | none digits =>
    cases hn with
    | none => rfl
    | plus | minus => exact absurd digits (not_digits_cons (by decide))
  | plus =>
    cases hn with
    | none digits => exact absurd digits (not_digits_cons (by decide))
    | plus => rfl
  | minus =>
    cases hn with
    | none digits => exact absurd digits (not_digits_cons (by decide))
    | minus => rfl

theorem exponent_functional {cs : List Char} {m n : ℤ} (hm : Exponent cs m) (hn : Exponent cs n) :
    m = n := by
  cases hm with
  | none => cases hn with | none => rfl
  | some _ hpower =>
    cases hn with
    | some _ hpower' => exact signed_functional hpower hpower'

theorem exponent_head {cs : List Char} {e : ℤ} (h : Exponent cs e) :
    ∀ c ∈ cs.head?, c ∈ ['e', 'E'] := by
  cases h with
  | none => nofun
  | some known =>
    rintro _ ⟨⟩
    exact known

theorem exponent_head_not_digit {cs : List Char} {e : ℤ} (h : Exponent cs e) :
    ∀ c ∈ cs.head?, c.isDigit = false := by
  have hmark : ∀ c ∈ ['e', 'E'], c.isDigit = false := by simp
  exact fun c hc => hmark c (exponent_head h c hc)

theorem fraction_head_not_digit {fraction exponent : List Char} {f : ℚ} {e : ℤ}
    (hf : Fraction fraction f) (he : Exponent exponent e) :
    ∀ c ∈ (fraction ++ exponent).head?, c.isDigit = false := by
  cases hf with
  | none => exact exponent_head_not_digit he
  | some =>
    rintro _ ⟨⟩
    decide

theorem fraction_append_inj {fraction fraction' exponent exponent' : List Char} {f f' : ℚ}
    {e e' : ℤ} (hf : Fraction fraction f) (hf' : Fraction fraction' f')
    (he : Exponent exponent e) (he' : Exponent exponent' e')
    (h : fraction ++ exponent = fraction' ++ exponent') : f = f' ∧ exponent = exponent' := by
  have hmark : '.' ∉ ['e', 'E'] := by decide
  cases hf with
  | none =>
    cases hf' with
    | none => exact ⟨rfl, h⟩
    | some =>
      rw [List.nil_append] at h
      exact absurd (exponent_head he '.' (by rw [h]; rfl)) hmark
  | some digits =>
    cases hf' with
    | none =>
      rw [List.nil_append] at h
      exact absurd (exponent_head he' '.' (by rw [← h]; rfl)) hmark
    | some digits' =>
      obtain ⟨rfl, hexponent⟩ := digits_append_inj digits digits' (exponent_head_not_digit he)
        (exponent_head_not_digit he') (List.cons.inj h).2
      exact ⟨rfl, hexponent⟩

theorem unsigned_append_inj {u v : List Char} {p q : ℚ} (hp : Unsigned u p) (hq : Unsigned v q)
    (h : u = v) : p = q := by
  obtain ⟨hwhole, hf, he⟩ := hp
  obtain ⟨hwhole', hf', he'⟩ := hq
  obtain ⟨rfl, hrest⟩ := digits_append_inj hwhole.toDigits hwhole'.toDigits
    (fraction_head_not_digit hf he) (fraction_head_not_digit hf' he') h
  obtain ⟨rfl, rfl⟩ := fraction_append_inj hf hf' he he' hrest
  rw [exponent_functional he he']

theorem unsigned_cons {cs : List Char} {q : ℚ} (h : Unsigned cs q) :
    ∃ c rest, cs = c :: rest ∧ c.isDigit = true := by
  obtain ⟨hwhole, _, _⟩ := h
  obtain ⟨c, rest, rfl, hc⟩ := digits_cons hwhole.toDigits
  exact ⟨c, _, rfl, hc⟩

theorem numeral_functional {cs : List Char} {p q : ℚ} (hp : Numeral cs p) (hq : Numeral cs q) :
    p = q := by
  have no_sign {cs : List Char} {q : ℚ} (h : Unsigned ('-' :: cs) q) : False := by
    obtain ⟨c, rest, hcs, hc⟩ := unsigned_cons h
    rw [← (List.cons.inj hcs).1] at hc
    cases hc
  cases hp with
  | positive size =>
    cases hq with
    | positive size' => exact unsigned_append_inj size size' rfl
    | negative => exact (no_sign size).elim
  | negative size =>
    cases hq with
    | positive size' => exact (no_sign size').elim
    | negative size' => rw [unsigned_append_inj size size' rfl]

/-- The characters that numbers are written with. -/
def isNumeric (c : Char) : Bool := c.isDigit || ['.', 'e', 'E', '+', '-'].contains c

theorem isNumeric_of_digits {cs : List Char} (h : Digits cs) : ∀ c ∈ cs, isNumeric c = true := by
  intro c hc
  rw [isNumeric, h.digit c hc, Bool.true_or]

theorem isNumeric_of_signed {cs : List Char} {n : ℤ} (h : Signed cs n) :
    ∀ c ∈ cs, isNumeric c = true := by
  cases h with
  | none digits => exact isNumeric_of_digits digits
  | plus digits | minus digits =>
    exact List.forall_mem_cons.mpr ⟨by decide, isNumeric_of_digits digits⟩

theorem isNumeric_of_unsigned {cs : List Char} {q : ℚ} (h : Unsigned cs q) :
    ∀ c ∈ cs, isNumeric c = true := by
  obtain ⟨hwhole, hf, he⟩ := h
  refine List.forall_mem_append.mpr ⟨isNumeric_of_digits hwhole.toDigits, ?_⟩
  refine List.forall_mem_append.mpr ⟨?_, ?_⟩
  · cases hf with
    | none => nofun
    | some digits => exact List.forall_mem_cons.mpr ⟨by decide, isNumeric_of_digits digits⟩
  · cases he with
    | none => nofun
    | some known power =>
      have hmark : ∀ c ∈ ['e', 'E'], isNumeric c = true := by simp [isNumeric]
      exact List.forall_mem_cons.mpr ⟨hmark _ known, isNumeric_of_signed power⟩

theorem isNumeric_of_numeral {cs : List Char} {q : ℚ} (h : Numeral cs q) :
    ∀ c ∈ cs, isNumeric c = true := by
  cases h with
  | positive size => exact isNumeric_of_unsigned size
  | negative size => exact List.forall_mem_cons.mpr ⟨by decide, isNumeric_of_unsigned size⟩

theorem numeral_append_inj {u v x y : List Char} {p q : ℚ} (hp : Numeral u p) (hq : Numeral v q)
    (hx : Stops x) (hy : Stops y) (h : u ++ x = v ++ y) : u = v ∧ p = q := by
  have outside : ∀ c ∈ blanks ++ closers, isNumeric c = false := by
    simp [blanks, closers, isNumeric]
  obtain ⟨rfl, _⟩ := append_inj_of_stop (isNumeric_of_numeral hp) (fun c hc => outside c (hx c hc))
    (isNumeric_of_numeral hq) (fun c hc => outside c (hy c hc)) h
  exact ⟨rfl, numeral_functional hp hq⟩

/-! Strings. -/

/-- No character has two entries in a table. -/
theorem hexDigits_functional : ∀ a ∈ hexDigits, ∀ b ∈ hexDigits, a.1 = b.1 → a.2 = b.2 := by
  decide

theorem escapes_functional : ∀ a ∈ escapes, ∀ b ∈ escapes, a.1 = b.1 → a.2 = b.2 := by
  decide

theorem code_append_inj {u v x y : List Char} {m n : Nat} (hm : Code u m) (hn : Code v n)
    (h : u ++ x = v ++ y) : u = v ∧ m = n ∧ x = y := by
  obtain ⟨ha, hb, hc, hd⟩ := hm
  obtain ⟨ha', hb', hc', hd'⟩ := hn
  simp only [List.cons_append, List.nil_append, List.cons.injEq] at h
  obtain ⟨h1, h2, h3, h4, hxy⟩ := h
  refine ⟨by rw [h1, h2, h3, h4], ?_, hxy⟩
  rw [hexDigits_functional _ ha _ ha' h1, hexDigits_functional _ hb _ hb' h2,
    hexDigits_functional _ hc _ hc' h3, hexDigits_functional _ hd _ hd' h4]

/-- The quote after a string shows where it ends. -/
theorem chars_append_inj {cs cs' x y : List Char} {us us' : List Nat} (h : Chars cs us)
    (h' : Chars cs' us') (heq : cs ++ '"' :: x = cs' ++ '"' :: y) : cs = cs' ∧ us = us' := by
  have no_u : ∀ e ∈ escapes, e.1 ≠ 'u' := by decide
  induction h generalizing cs' us' with
  | nil =>
    cases h' with
    | nil => exact ⟨rfl, rfl⟩
    | plain _ quote => exact absurd (List.cons.inj heq).1.symm quote
    | escape | code => exact absurd (List.cons.inj heq).1 (by decide)
  | plain _ quote backslash _ ih =>
    cases h' with
    | nil => exact absurd (List.cons.inj heq).1 quote
    | plain _ _ _ rest' =>
      obtain ⟨rfl, hrest⟩ := List.cons.inj heq
      obtain ⟨rfl, rfl⟩ := ih rest' hrest
      exact ⟨rfl, rfl⟩
    | escape | code => exact absurd (List.cons.inj heq).1 backslash
  | escape known _ ih =>
    cases h' with
    | nil => exact absurd (List.cons.inj heq).1 (by decide)
    | plain _ _ backslash => exact absurd (List.cons.inj heq).1.symm backslash
    | escape known' rest' =>
      obtain ⟨hchar, hrest⟩ := List.cons.inj (List.cons.inj heq).2
      obtain ⟨rfl, rfl⟩ := ih rest' hrest
      exact ⟨by rw [hchar], by rw [escapes_functional _ known _ known' hchar]⟩
    | code => exact absurd (List.cons.inj (List.cons.inj heq).2).1 (no_u _ known)
  | code hcode _ ih =>
    cases h' with
    | nil => exact absurd (List.cons.inj heq).1 (by decide)
    | plain _ _ backslash => exact absurd (List.cons.inj heq).1.symm backslash
    | escape known' =>
      exact absurd (List.cons.inj (List.cons.inj heq).2).1.symm (no_u _ known')
    | code hcode' rest' =>
      simp only [List.cons_append, List.append_assoc, List.cons.injEq, true_and] at heq
      obtain ⟨rfl, rfl, hrest⟩ := code_append_inj hcode hcode' heq
      obtain ⟨rfl, rfl⟩ := ih rest' hrest
      exact ⟨rfl, rfl⟩

theorem quoted_append_inj {u v x y : List Char} {us vs : List Nat} (hu : Quoted u us)
    (hv : Quoted v vs) (h : u ++ x = v ++ y) : u = v ∧ us = vs := by
  obtain ⟨hcs⟩ := hu
  obtain ⟨hcs'⟩ := hv
  simp only [List.cons_append, List.append_assoc, List.nil_append, List.cons.injEq, true_and] at h
  obtain ⟨rfl, rfl⟩ := chars_append_inj hcs hcs' h
  exact ⟨rfl, rfl⟩

/-! Arrays and objects. -/

/-- Texts of the kind begin with a character that is no white space and closes nothing. -/
def Begins (P : List Char → α → Prop) : Prop :=
  ∀ ⦃u : List Char⦄ ⦃a : α⦄, P u a → ∃ c rest, u = c :: rest ∧ c ∉ blanks ++ closers

/-- So do texts of the kind after the white space at their front. -/
def Opens (P : List Char → α → Prop) : Prop :=
  ∀ ⦃u : List Char⦄ ⦃a : α⦄, P u a →
    ∃ space c rest, u = space ++ c :: rest ∧ Space space ∧ c ∉ blanks ++ closers

variable {P : List Char → α → Prop} {Item : List Char → α → Prop} {bound : Nat}

theorem Begins.solid (hP : Begins P) {u : List Char} {a : α} (h : P u a) (x : List Char) :
    Solid (u ++ x) := by
  obtain ⟨c, rest, rfl, hc⟩ := hP h
  rintro _ ⟨⟩ hblank
  exact hc (List.mem_append_left closers hblank)

theorem element_opens (hP : Begins P) : Opens (Element P) := by
  rintro u a ⟨hbefore, value, _⟩
  obtain ⟨c, rest, rfl, hc⟩ := hP value
  exact ⟨_, c, _, rfl, hbefore, hc⟩

/-- White space around a value is not part of it. -/
theorem element_told (hbegins : Begins P) (hP : Told P Stops bound) :
    Told (Element P) Closes bound := by
  rintro u v a b x y hlength ⟨hbefore, value, hafter⟩ ⟨hbefore', value', hafter'⟩ hx hy h
  simp only [List.length_append] at hlength
  simp only [List.append_assoc] at h
  obtain ⟨rfl, hvalue⟩ := space_append_inj hbefore hbefore' (hbegins.solid value _)
    (hbegins.solid value' _) h
  obtain ⟨rfl, rfl⟩ := hP (by omega) value value' (stops_space_append hafter hx)
    (stops_space_append hafter' hy) hvalue
  obtain ⟨rfl, _⟩ := space_append_inj hafter hafter' hx.solid hy.solid
    (List.append_cancel_left hvalue)
  exact ⟨rfl, rfl⟩

theorem quoted_begins : Begins Quoted := by
  rintro u us ⟨_⟩
  exact ⟨'"', _, rfl, by decide⟩

theorem name_told : Told (Element Quoted) Closes bound := by
  apply element_told quoted_begins
  intro u v us vs x y _ hu hv _ _ h
  exact quoted_append_inj hu hv h

theorem member_opens : Opens (Member P) := by
  rintro u m ⟨hname, _⟩
  obtain ⟨space, c, rest, rfl, hspace, hc⟩ := element_opens quoted_begins hname
  exact ⟨space, c, _, by rw [List.append_assoc, List.cons_append], hspace, hc⟩

theorem member_told (hbegins : Begins P) (hP : Told P Stops bound) :
    Told (Member P) Closes bound := by
  rintro u v a b x y hlength ⟨hname, value⟩ ⟨hname', value'⟩ hx hy h
  simp only [List.length_append, List.length_cons] at hlength
  simp only [List.append_assoc, List.cons_append] at h
  have hcolon : ':' ∈ closers := by decide
  obtain ⟨rfl, rfl⟩ := name_told (Nat.lt_succ_self _) hname hname' (closes_cons hcolon _)
    (closes_cons hcolon _) h
  obtain ⟨rfl, rfl⟩ := element_told hbegins hP (by omega) value value' hx hy
    (List.cons.inj (List.append_cancel_left h)).2
  exact ⟨rfl, rfl⟩

theorem separated_opens (hItem : Opens Item) : Opens (Separated Item) := by
  intro u vs h
  cases h with
  | last item => exact hItem item
  | cons item _ =>
    obtain ⟨space, c, rest, rfl, hspace, hc⟩ := hItem item
    exact ⟨space, c, _, by rw [List.append_assoc, List.cons_append], hspace, hc⟩

/-- Items go on as long as commas follow. -/
theorem separated_told (hItem : Told Item Closes bound) :
    Told (Separated Item) (fun x => Closes x ∧ ∀ c ∈ x.head?, c ≠ ',') bound := by
  have hcomma : ',' ∈ closers := by decide
  intro u v as bs x y hlength hu hv hx hy h
  induction hu generalizing v bs with
  | last item =>
    cases hv with
    | last item' =>
      obtain ⟨rfl, rfl⟩ := hItem hlength item item' hx.1 hy.1 h
      exact ⟨rfl, rfl⟩
    | cons item' _ =>
      rw [List.append_assoc, List.cons_append] at h
      obtain ⟨rfl, rfl⟩ := hItem hlength item item' hx.1 (closes_cons hcomma _) h
      exact absurd rfl (hx.2 ',' (by rw [List.append_cancel_left h]; rfl))
  | cons item more ih =>
    simp only [List.length_append, List.length_cons] at hlength
    rw [List.append_assoc, List.cons_append] at h
    cases hv with
    | last item' =>
      obtain ⟨rfl, rfl⟩ := hItem (by omega) item item' (closes_cons hcomma _) hy.1 h
      exact absurd rfl (hy.2 ',' (by rw [← List.append_cancel_left h]; rfl))
    | cons item' more' =>
      rw [List.append_assoc, List.cons_append] at h
      obtain ⟨rfl, rfl⟩ := hItem (by omega) item item' (closes_cons hcomma _)
        (closes_cons hcomma _) h
      have hrest := (List.cons.inj (List.append_cancel_left h)).2
      obtain ⟨rfl, rfl⟩ := ih (by omega) more' hrest
      exact ⟨rfl, rfl⟩

/-- The closing bracket ends a list of items. -/
theorem listed_told {close : Char} (hclose : close ∈ closers) (hcomma : close ≠ ',')
    (hopens : Opens Item) (hItem : Told Item Closes bound) :
    Told (Listed close Item) (fun _ => True) bound := by
  have hend (x : List Char) : Closes (close :: x) ∧ ∀ c ∈ (close :: x).head?, c ≠ ',' := by
    refine ⟨closes_cons hclose x, ?_⟩
    rintro _ ⟨⟩
    exact hcomma
  have no_item {space cs : List Char} {vs : List α} {x y : List Char} (hspace : Space space)
      (hitems : Separated Item cs vs) : space ++ close :: x ≠ cs ++ close :: y := by
    intro h
    obtain ⟨space', c, rest, rfl, hspace', hc⟩ := separated_opens hopens hitems
    rw [List.append_assoc, List.cons_append] at h
    have hsolid : Solid (c :: (rest ++ close :: y)) := by
      rintro _ ⟨⟩ hblank
      exact hc (List.mem_append_left closers hblank)
    obtain ⟨_, h⟩ := space_append_inj hspace hspace' (hend x).1.solid hsolid h
    obtain ⟨rfl, _⟩ := List.cons.inj h
    exact hc (List.mem_append_right blanks hclose)
  intro u v as bs x y hlength hu hv _ _ h
  cases hu with
  | empty space =>
    cases hv with
    | empty space' =>
      rw [List.append_assoc, List.append_assoc] at h
      obtain ⟨rfl, _⟩ := space_append_inj space space' (hend x).1.solid (hend y).1.solid h
      exact ⟨rfl, rfl⟩
    | items separated =>
      rw [List.append_assoc, List.append_assoc] at h
      exact absurd h (no_item space separated)
  | items separated =>
    cases hv with
    | empty space =>
      rw [List.append_assoc, List.append_assoc] at h
      exact absurd h.symm (no_item space separated)
    | items separated' =>
      rw [List.append_assoc, List.append_assoc] at h
      rw [List.length_append] at hlength
      obtain ⟨rfl, rfl⟩ := separated_told hItem (by omega) separated separated' (hend x) (hend y) h
      exact ⟨rfl, rfl⟩

/-! Values. -/

/-- Stands for all characters that a number may begin with; of others, the character
itself. -/
def mark (c : Char) : Char := if c = '-' ∨ c.isDigit = true then '0' else c

end JsonText

/-- The mark of the character that the texts for a value begin with. -/
def JsonValue.mark : JsonValue → Char
  | .null => 'n'
  | .bool true => 't'
  | .bool false => 'f'
  | .number _ => '0'
  | .infinity => 'I'
  | .string _ => '"'
  | .array _ => '['
  | .object _ => '\x7b'

namespace JsonText

theorem numeral_cons {cs : List Char} {q : ℚ} (h : Numeral cs q) :
    ∃ c rest, cs = c :: rest ∧ mark c = '0' := by
  cases h with
  | positive size =>
    obtain ⟨c, rest, rfl, hc⟩ := unsigned_cons size
    exact ⟨c, rest, rfl, if_pos (Or.inr hc)⟩
  | negative => exact ⟨'-', _, rfl, rfl⟩

theorem value_cons {u : List Char} {v : JsonValue} (h : Value u v) :
    ∃ c rest, u = c :: rest ∧ mark c = v.mark := by
  cases h with
  | number numeral => exact numeral_cons numeral
  | string quoted =>
    obtain ⟨_⟩ := quoted
    exact ⟨'"', _, rfl, rfl⟩
  | _ => exact ⟨_, _, rfl, rfl⟩

theorem value_begins : Begins Value := by
  intro u v h
  obtain ⟨c, rest, rfl, hc⟩ := value_cons h
  refine ⟨c, rest, rfl, ?_⟩
  intro hmem
  have hsame : ∀ d ∈ blanks ++ closers, mark d ∈ blanks ++ closers := by
    simp [blanks, closers, mark]
  have hmark := hsame c hmem
  rw [hc] at hmark
  cases v with
  | bool value => cases value <;> exact absurd hmark (by decide)
  | _ => exact absurd hmark (by simp [JsonValue.mark, blanks, closers])

theorem value_told (bound : Nat) : Told Value Stops bound := by
  induction bound with
  | zero =>
    intro u v a b x y hlength
    exact absurd hlength (Nat.not_lt_zero _)
  | succ bound ih =>
    intro u v a b x y hlength hu hv hx hy h
    have hmark : a.mark = b.mark := by
      obtain ⟨c, rest, hc, hmark⟩ := value_cons hu
      obtain ⟨c', rest', hc', hmark'⟩ := value_cons hv
      rw [hc, hc'] at h
      rw [← hmark, ← hmark', (List.cons.inj h).1]
    cases hu with
    | number numeral =>
      cases hv with
      | number numeral' =>
        obtain ⟨rfl, rfl⟩ := numeral_append_inj numeral numeral' hx hy h
        exact ⟨rfl, rfl⟩
      | _ => simp [JsonValue.mark] at hmark
    | string quoted =>
      cases hv with
      | string quoted' =>
        obtain ⟨rfl, rfl⟩ := quoted_append_inj quoted quoted' h
        exact ⟨rfl, rfl⟩
      | _ => simp [JsonValue.mark] at hmark
    | array elements =>
      cases hv with
      | array elements' =>
        have htold := element_told value_begins ih
        obtain ⟨rfl, rfl⟩ := listed_told (by decide) (by decide) (element_opens value_begins) htold
          (Nat.lt_of_succ_lt_succ hlength) elements elements' trivial trivial (List.cons.inj h).2
        exact ⟨rfl, rfl⟩
      | _ => simp [JsonValue.mark] at hmark
    | object members =>
      cases hv with
      | object members' =>
        have htold := member_told value_begins ih
        obtain ⟨rfl, rfl⟩ := listed_told (by decide) (by decide) member_opens htold
          (Nat.lt_of_succ_lt_succ hlength) members members' trivial trivial (List.cons.inj h).2
        exact ⟨rfl, rfl⟩
      | _ => simp [JsonValue.mark] at hmark
    | _ => cases hv <;> first | exact ⟨rfl, rfl⟩ | simp [JsonValue.mark] at hmark

/-- A text says one thing at most. -/
theorem decodes_unique {text : String} {v w : JsonValue} (hv : Decodes text v)
    (hw : Decodes text w) : v = w := by
  have htold := element_told value_begins (value_told (text.toList.length + 1))
  exact (htold (Nat.lt_succ_self _) hv hw closes_nil closes_nil rfl).2

end JsonText

end Crafter
