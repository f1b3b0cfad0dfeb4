import Crafter.Text.Lines
import Crafter.Text.Utf8

/-! Texts in files. The bytes that encode a text are read as that text, whatever its
characters, and of the line ends that texts may have one kind is left. -/
namespace Crafter.Text

namespace Utf8

/-- The bytes that encode a text. -/
def encode (cs : List Char) : List UInt8 := cs.flatMap String.utf8EncodeChar

theorem toList_toUTF8 (text : String) : text.toUTF8.data.toList = encode text.toList := by
  rw [String.toUTF8_eq_toByteArray, ← String.utf8Encode_toList]
  exact List.data_toByteArray ▸ List.toList_toArray

theorem toNat_byte {n : Nat} (h : n < 256) : (UInt8.ofNat n).toNat = n :=
  UInt8.toNat_ofNat_of_lt' h

/-- What a first byte announces, told of its value. -/
theorem lead?_eq {n : Nat} (h : n < 256) : lead? (UInt8.ofNat n) =
    if 0xC2 ≤ n ∧ n ≤ 0xDF then some ⟨n - 0xC0, 0x80, 0xBF, 0⟩
    else if n = 0xE0 then some ⟨0, 0xA0, 0xBF, 1⟩
    else if n = 0xED then some ⟨0x0D, 0x80, 0x9F, 1⟩
    else if 0xE1 ≤ n ∧ n ≤ 0xEF then some ⟨n - 0xE0, 0x80, 0xBF, 1⟩
    else if n = 0xF0 then some ⟨0, 0x90, 0xBF, 2⟩
    else if n = 0xF4 then some ⟨4, 0x80, 0x8F, 2⟩
    else if 0xF1 ≤ n ∧ n ≤ 0xF3 then some ⟨n - 0xF0, 0x80, 0xBF, 2⟩
    else none := by
  unfold lead?
  simp only [UInt8.le_iff_toNat_le, ← UInt8.toNat_inj, toNat_byte h]
  rfl

/-- A further byte between the bounds gives six more bits. -/
theorem continue?_byte (code taken extra : Nat) {low high : UInt8} {bits : Nat}
    (hlow : low.toNat ≤ bits + 0x80) (hhigh : bits + 0x80 ≤ high.toNat) (rest : List UInt8) :
    continue? code taken low high extra (UInt8.ofNat (bits + 0x80) :: rest) =
      match extra with
      | 0 => .ok ⟨64 * code + bits, taken + 1, rest⟩
      | extra + 1 => continue? (64 * code + bits) (taken + 1) 0x80 0xBF extra rest := by
  have hbyte : (UInt8.ofNat (bits + 0x80)).toNat = bits + 0x80 :=
    toNat_byte (Nat.lt_of_le_of_lt hhigh high.toNat_lt)
  have hin : ¬(UInt8.ofNat (bits + 0x80) < low ∨ high < UInt8.ofNat (bits + 0x80)) := by
    rw [UInt8.lt_iff_toNat_lt, UInt8.lt_iff_toNat_lt, hbyte]
    omega
  cases extra <;> rw [continue?, if_neg hin, hbyte, Nat.add_sub_cancel]

/-- Six bits fit into a further byte. -/
theorem le_last {bits : Nat} (h : bits < 0x40) : bits + 0x80 ≤ (0xBF : UInt8).toNat :=
  Nat.add_le_add_right (Nat.le_of_lt_succ h) _

theorem character_of_lead {n : Nat} (h : n < 256) (hlarge : 0x80 ≤ n) {lead : Lead}
    (hlead : lead? (UInt8.ofNat n) = some lead) (rest : List UInt8) :
    character (UInt8.ofNat n) rest =
      continue? lead.bits 1 lead.low lead.high lead.extra rest := by
  have hnot : ¬UInt8.ofNat n < 0x80 := by
    rw [UInt8.lt_iff_toNat_lt, toNat_byte h]
    exact Nat.not_lt.mpr hlarge
  unfold character
  rw [if_neg hnot, hlead]

theorem character_one {v : Nat} (h : v < 0x80) (rest : List UInt8) :
    character (UInt8.ofNat v) rest = .ok ⟨v, 1, rest⟩ := by
  have hbyte : (UInt8.ofNat v).toNat = v := toNat_byte (by omega)
  have hsmall : UInt8.ofNat v < 0x80 := by
    rw [UInt8.lt_iff_toNat_lt, hbyte]
    exact h
  unfold character
  rw [if_pos hsmall, hbyte]

/-- Eleven bits in two bytes; fewer than eight bits do not take two. -/
theorem character_two {a b : Nat} (hlow : 2 ≤ a) (hhigh : a < 0x20) (hb : b < 0x40)
    (rest : List UInt8) :
    character (UInt8.ofNat (a + 0xC0)) (UInt8.ofNat (b + 0x80) :: rest) =
      .ok ⟨64 * a + b, 2, rest⟩ := by
  have hlead : lead? (UInt8.ofNat (a + 0xC0)) = some ⟨a, 0x80, 0xBF, 0⟩ := by
    rw [lead?_eq (by omega), if_pos (by omega), Nat.add_sub_cancel]
  rw [character_of_lead (by omega) (by omega) hlead]
  exact continue?_byte a 1 0 (Nat.le_add_left ..) (le_last hb) rest

/-- The first of three bytes bounds the second one where it has no bits of its own, and where
surrogates would begin. -/
theorem exists_lead_three {a b : Nat} (ha : a < 0x10) (hb : b < 0x40) (hfirst : a = 0 → 0x20 ≤ b)
    (hsurrogate : a = 0x0D → b < 0x20) : ∃ low high : UInt8,
      lead? (UInt8.ofNat (a + 0xE0)) = some ⟨a, low, high, 1⟩ ∧
      low.toNat ≤ b + 0x80 ∧ b + 0x80 ≤ high.toNat := by
  rw [lead?_eq (by omega), if_neg (by omega)]
  by_cases hzero : a = 0
  · subst hzero
    have hlow := hfirst rfl
    refine ⟨0xA0, 0xBF, rfl, ?_, ?_⟩
    · change 0xA0 ≤ _
      omega
    · change _ ≤ 0xBF
      omega
  by_cases hlast : a = 0x0D
  · subst hlast
    have hhigh := hsurrogate rfl
    refine ⟨0x80, 0x9F, rfl, Nat.le_add_left .., ?_⟩
    change _ ≤ 0x9F
    omega
  · refine ⟨0x80, 0xBF, ?_, Nat.le_add_left .., le_last hb⟩
    rw [if_neg (by omega), if_neg (by omega), if_pos (by omega), Nat.add_sub_cancel]

/-- Sixteen bits in three bytes. -/
theorem character_three {a b c : Nat} (ha : a < 0x10) (hb : b < 0x40) (hc : c < 0x40)
    (hfirst : a = 0 → 0x20 ≤ b) (hsurrogate : a = 0x0D → b < 0x20) (rest : List UInt8) :
    character (UInt8.ofNat (a + 0xE0)) (UInt8.ofNat (b + 0x80) :: UInt8.ofNat (c + 0x80) :: rest) =
      .ok ⟨64 * (64 * a + b) + c, 3, rest⟩ := by
  obtain ⟨low, high, hlead, hlow, hhigh⟩ := exists_lead_three ha hb hfirst hsurrogate
  rw [character_of_lead (by omega) (by omega) hlead]
  refine (continue?_byte a 1 1 hlow hhigh _).trans ?_
  exact continue?_byte _ 2 0 (Nat.le_add_left ..) (le_last hc) rest

/-- The first of four bytes bounds the second one where it has no bits of its own, and where the
code points end. -/
theorem exists_lead_four {a b : Nat} (ha : a ≤ 4) (hb : b < 0x40) (hfirst : a = 0 → 0x10 ≤ b)
    (hend : a = 4 → b < 0x10) : ∃ low high : UInt8,
      lead? (UInt8.ofNat (a + 0xF0)) = some ⟨a, low, high, 2⟩ ∧
      low.toNat ≤ b + 0x80 ∧ b + 0x80 ≤ high.toNat := by
  rw [lead?_eq (by omega), if_neg (by omega), if_neg (by omega), if_neg (by omega),
    if_neg (by omega)]
  by_cases hzero : a = 0
  · subst hzero
    have hlow := hfirst rfl
    refine ⟨0x90, 0xBF, rfl, ?_, ?_⟩
    · change 0x90 ≤ _
      omega
    · change _ ≤ 0xBF
      omega
  by_cases hlast : a = 4
  · subst hlast
    have hhigh := hend rfl
    refine ⟨0x80, 0x8F, rfl, Nat.le_add_left .., ?_⟩
    change _ ≤ 0x8F
    omega
  · refine ⟨0x80, 0xBF, ?_, Nat.le_add_left .., le_last hb⟩
    rw [if_neg (by omega), if_neg (by omega), if_pos (by omega), Nat.add_sub_cancel]

/-- Twenty-one bits in four bytes. -/
theorem character_four {a b c d : Nat} (ha : a ≤ 4) (hb : b < 0x40) (hc : c < 0x40) (hd : d < 0x40)
    (hfirst : a = 0 → 0x10 ≤ b) (hend : a = 4 → b < 0x10) (rest : List UInt8) :
    character (UInt8.ofNat (a + 0xF0))
        (UInt8.ofNat (b + 0x80) :: UInt8.ofNat (c + 0x80) :: UInt8.ofNat (d + 0x80) :: rest) =
      .ok ⟨64 * (64 * (64 * a + b) + c) + d, 4, rest⟩ := by
  obtain ⟨low, high, hlead, hlow, hhigh⟩ := exists_lead_four ha hb hfirst hend
  rw [character_of_lead (by omega) (by omega) hlead]
  refine (continue?_byte a 1 2 hlow hhigh _).trans ?_
  refine (continue?_byte _ 2 1 (Nat.le_add_left ..) (le_last hc) _).trans ?_
  exact continue?_byte _ 3 0 (Nat.le_add_left ..) (le_last hd) rest

/-- The bytes of a character are read as that character. -/
theorem character_encode (c : Char) : ∃ b bs, String.utf8EncodeChar c = b :: bs ∧
    ∀ rest, ∃ size, character b (bs ++ rest) = .ok ⟨c.toNat, size, rest⟩ := by
  have hvalid : c.val.toNat < 0xD800 ∨ 0xDFFF < c.val.toNat ∧ c.val.toNat < 0x110000 := c.valid
  unfold String.utf8EncodeChar Char.toNat
  generalize c.val.toNat = v at hvalid ⊢
  dsimp only
  by_cases hone : v ≤ 0x7f
  · rw [if_pos hone]
    exact ⟨_, _, rfl, fun rest => ⟨1, character_one (Nat.lt_succ_of_le hone) rest⟩⟩
  rw [if_neg hone]
  by_cases htwo : v ≤ 0x7ff
  · rw [if_pos htwo]
    refine ⟨_, _, rfl, fun rest => ⟨2, ?_⟩⟩
    have h := character_two (a := v / 64 % 0x20) (b := v % 0x40) (by omega) (by omega) (by omega)
      rest
    rwa [show 64 * (v / 64 % 0x20) + v % 0x40 = v by omega] at h
  rw [if_neg htwo]
  by_cases hthree : v ≤ 0xffff
  · rw [if_pos hthree]
    refine ⟨_, _, rfl, fun rest => ⟨3, ?_⟩⟩
    have h := character_three (a := v / 4096 % 0x10) (b := v / 64 % 0x40) (c := v % 0x40)
      (by omega) (by omega) (by omega) (by omega) (by omega) rest
    rwa [show 64 * (64 * (v / 4096 % 0x10) + v / 64 % 0x40) + v % 0x40 = v by omega] at h
  · rw [if_neg hthree]
    refine ⟨_, _, rfl, fun rest => ⟨4, ?_⟩⟩
    have h := character_four (a := v / 262144 % 0x08) (b := v / 4096 % 0x40)
      (c := v / 64 % 0x40) (d := v % 0x40) (by omega) (by omega) (by omega) (by omega) (by omega)
      (by omega) rest
    rwa [show 64 * (64 * (64 * (v / 262144 % 0x08) + v / 4096 % 0x40) + v / 64 % 0x40) +
      v % 0x40 = v by omega] at h

theorem decodeFrom_encode (offset : Nat) (cs : List Char) :
    decodeFrom offset (encode cs) = .ok cs := by
  induction cs generalizing offset with
  | nil =>
    unfold encode
    rw [List.flatMap_nil, decodeFrom]
  | cons c cs ih =>
    obtain ⟨b, bs, hbytes, hread⟩ := character_encode c
    obtain ⟨size, hcharacter⟩ := hread (encode cs)
    have hsplit : encode (c :: cs) = b :: (bs ++ encode cs) := by
      unfold encode
      rw [List.flatMap_cons, hbytes, List.cons_append]
    rw [hsplit, decodeFrom]
    split
    · next hfault => cases hcharacter.symm.trans hfault
    · next d hd =>
      cases hcharacter.symm.trans hd
      dsimp only
      rw [ih, Char.ofNat_toNat]

/-- Reading the bytes of a text gives the text. -/
theorem decode_toUTF8 (text : String) : decode text.toUTF8.data.toList = .ok text.toList := by
  rw [toList_toUTF8]
  exact decodeFrom_encode 0 text.toList

end Utf8

/-- Every carriage return that a line feed follows is left out. -/
def withoutPairs : List Char → List Char
  | [] => []
  | '\r' :: '\n' :: cs => '\n' :: withoutPairs cs
  | c :: cs => c :: withoutPairs cs

/-- Every carriage return becomes a line feed. -/
def returnsToFeeds (cs : List Char) : List Char := cs.map fun c => if c = '\r' then '\n' else c

/-- Line ends become one kind in two steps: the pairs first, and then the carriage
returns that are left. -/
theorem unifyLineEnds_eq (cs : List Char) :
    unifyLineEnds cs = returnsToFeeds (withoutPairs cs) := by
  induction cs using unifyLineEnds.induct with
  | case1 => rfl
  | case2 cs ih =>
    rw [unifyLineEnds, ih, withoutPairs]
    rfl
  | case3 cs hpair ih =>
    have hright : withoutPairs ('\r' :: cs) = '\r' :: withoutPairs cs := by
      rw [withoutPairs]
      rintro rest - rfl
      exact hpair rest rfl
    rw [unifyLineEnds, ih, hright]
    · rfl
    · exact hpair
  | case4 c cs hpair hreturn ih =>
    have hleft : unifyLineEnds (c :: cs) = c :: unifyLineEnds cs := by
      rw [unifyLineEnds] <;> assumption
    have hright : withoutPairs (c :: cs) = c :: withoutPairs cs := by
      rw [withoutPairs]
      assumption
    rw [hleft, hright, ih]
    unfold returnsToFeeds
    rw [List.map_cons, if_neg hreturn]

/-- The text with a line feed for every pair of a carriage return and a line feed, and for
every carriage return that is left. -/
def withLineFeeds (text : String) : String :=
  String.ofList (returnsToFeeds (withoutPairs text.toList))

end Crafter.Text
