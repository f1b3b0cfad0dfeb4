import Crafter.Proofs.JsonTree
import Crafter.Proofs.TreeView

/-! The numbered view of a token list loses only where the tokens stand. A value may
run over several lines and may look like further entries; yet no value contains a
quote, so that each entry ends at the second quote after its number. -/
namespace Crafter

open JsonText

/-- A number in a program is told by its value as text. -/
theorem Literal.text_injective {a b : Literal} (h : a.text = b.text) : a = b := by
  have word (n : Nat) : toString n ≠ "inf" := by
    intro hword
    have hhead : 'i' ∈ n.repr.toList := by
      rw [show n.repr = "inf" from hword]
      decide
    rw [Nat.toList_repr] at hhead
    exact absurd (Nat.isDigit_of_mem_toDigits (by decide) (by decide) hhead) (by decide)
  cases a with
  | exact m =>
    cases b with
    | exact n =>
      have hdigits : Nat.toDigits 10 m = Nat.toDigits 10 n := by
        rw [← Nat.toList_repr, ← Nat.toList_repr]
        exact congrArg String.toList h
      have hvalue := congrArg (Nat.ofDigitChars 10 · 0) hdigits
      simp only [Nat.ofDigitChars_ten_toDigits] at hvalue
      rw [hvalue]
    | infinite => exact absurd h (word m)
  | infinite =>
    cases b with
    | exact n => exact absurd h.symm (word n)
    | infinite => rfl

namespace Lexeme

/-- Tokens of one class that have the same value say the same. -/
theorem value_injective {a b : Lexeme} (hcategory : a.category = b.category)
    (h : a.value = b.value) : a = b := by
  apply json_injective hcategory
  cases a with
  | number value =>
    cases b with
    | number value' => rw [Literal.text_injective h]
    | _ => simp [category] at hcategory
  | _ =>
    cases b with
    | number => simp [category] at hcategory
    | _ => exact congrArg Json.string h

theorem category_clear (lexeme : Lexeme) : ':' ∉ lexeme.category.toList := by
  cases lexeme <;> simp [category]

end Lexeme

namespace Source

/-- No value contains a quote: a text in quotes ends at the first one. -/
theorem no_quote_of_spelt {chars : List Char} {lexeme : Lexeme} (h : Spelt chars lexeme) :
    '"' ∉ lexeme.value.toList := by
  have hoperator : '"' ∉ operatorCharacters := by decide
  cases lexeme with
  | string contents => exact no_quote_of_string h
  | keyword word => cases word <;> decide
  | brace side => cases side <;> decide
  | identifier name =>
    have hname := isAlphanum_of_operand h (Or.inl ⟨name, rfl⟩)
    exact fun hquote => absurd (hname _ hquote) (by decide)
  | number value =>
    have hnumber := isAlphanum_of_operand h (Or.inr ⟨value, rfl⟩)
    exact fun hquote => absurd (hnumber _ hquote) (by decide)
  | operator spelling =>
    intro hquote
    cases h with
    | operator c start =>
      simp only [Lexeme.value, String.toList_ofList, List.mem_singleton] at hquote
      exact hoperator (hquote ▸ start)
    | compound c start =>
      simp only [Lexeme.value, String.toList_ofList, List.mem_cons, List.not_mem_nil,
        or_false] at hquote
      rcases hquote with hquote | hquote
      · exact hoperator (hquote ▸ start)
      · exact absurd hquote (by decide)

end Source

namespace Token

variable {t u : Token}

theorem toList_numbered (n : Nat) (t : Token) (x : List Char) :
    (t.numbered n).toList ++ x = (toString n).toList ++ '.' :: ' ' ::
      (t.lexeme.category.toList ++ ':' :: ' ' :: '"' ::
        (t.lexeme.value.toList ++ '"' :: x)) := by
  simp [numbered, toString]

/-- An entry shows where its class and its value end. -/
theorem numbered_append_inj (ht : t.WellSpelt) (hu : u.WellSpelt) {n : Nat} {x y : List Char}
    (h : (t.numbered n).toList ++ x = (u.numbered n).toList ++ y) :
    t.lexeme = u.lexeme ∧ x = y := by
  rw [toList_numbered, toList_numbered] at h
  have hentry := (List.cons.inj (List.cons.inj (List.append_cancel_left h)).2).2
  obtain ⟨hcategory, hrest⟩ :=
    cut_inj t.lexeme.category_clear u.lexeme.category_clear hentry
  obtain ⟨hvalue, hxy⟩ := cut_inj (Source.no_quote_of_spelt ht) (Source.no_quote_of_spelt hu)
    (List.cons.inj (List.cons.inj hrest).2).2
  exact ⟨Lexeme.value_injective hcategory hvalue, hxy⟩

/-- The entries from number `n` on, as they stand after another one. -/
def entries (n : Nat) (tokens : List Token) : List Char :=
  (tokens.zipIdx n).flatMap fun (t, n) => '\n' :: (t.numbered n).toList

theorem entries_cons (n : Nat) (t : Token) (tokens : List Token) :
    entries n (t :: tokens) = '\n' :: ((t.numbered n).toList ++ entries (n + 1) tokens) := by
  rw [entries, List.zipIdx_cons, List.flatMap_cons, List.cons_append]
  rfl

theorem entries_injective {tokens tokens' : List Token} (ht : ∀ t ∈ tokens, t.WellSpelt)
    (ht' : ∀ t ∈ tokens', t.WellSpelt) {n : Nat} (h : entries n tokens = entries n tokens') :
    tokens.map (·.lexeme) = tokens'.map (·.lexeme) := by
  -- along both lists: what follows an entry is the text of the entries after it
  induction tokens generalizing tokens' n with
  | nil =>
    cases tokens' with
    | nil => rfl
    | cons u tokens' => rw [entries_cons] at h; cases h
  | cons t tokens ih =>
    cases tokens' with
    | nil => rw [entries_cons] at h; cases h
    | cons u tokens' =>
      rw [entries_cons, entries_cons] at h
      obtain ⟨hlexeme, hrest⟩ := numbered_append_inj (ht t List.mem_cons_self)
        (ht' u List.mem_cons_self) (List.cons.inj h).2
      have hmore := ih (fun t hmem => ht t (List.mem_cons_of_mem _ hmem))
        (fun u hmem => ht' u (List.mem_cons_of_mem _ hmem)) hrest
      rw [List.map_cons, List.map_cons, hlexeme, hmore]

/-- The entries stand below each other: behind a line feed, the view is a run of them. -/
theorem entries_eq_listing (tokens : List Token) (nonempty : tokens ≠ []) :
    entries 1 tokens = '\n' :: (listing tokens).toList := by
  obtain ⟨t, tokens, rfl⟩ := List.exists_cons_of_ne_nil nonempty
  have hlines : listing (t :: tokens) =
      Text.joinLines (t.numbered 1 :: (tokens.zipIdx 2).map fun (t, n) => t.numbered n) := rfl
  rw [entries_cons, hlines, Program.toList_joinLines_cons, List.flatMap_map]
  rfl

theorem listing_eq_empty_iff (tokens : List Token) : listing tokens = "" ↔ tokens = [] := by
  constructor
  · intro h
    by_contra hne
    obtain ⟨t, more, rfl⟩ := List.exists_cons_of_ne_nil hne
    have hentries := entries_eq_listing (t :: more) hne
    rw [h, entries_cons, toList_numbered] at hentries
    simp at hentries
  · rintro rfl
    rfl

theorem entries_injective_of_listing {tokens tokens' : List Token}
    (h : listing tokens = listing tokens') : entries 1 tokens = entries 1 tokens' := by
  by_cases hnil : tokens = []
  · have hnil' : tokens' = [] := by
      rw [← listing_eq_empty_iff, ← h, listing_eq_empty_iff]
      exact hnil
    rw [hnil, hnil']
  · have hne' : tokens' ≠ [] := by
      rw [ne_eq, ← listing_eq_empty_iff, ← h, listing_eq_empty_iff]
      exact hnil
    rw [entries_eq_listing tokens hnil, entries_eq_listing tokens' hne', h]

/-- The view shows of a token what it says, and nothing else. -/
theorem listing_eq_of_lexemes {tokens tokens' : List Token}
    (h : tokens.map (·.lexeme) = tokens'.map (·.lexeme)) : listing tokens = listing tokens' := by
  have hlisting (tokens : List Token) : listing tokens = "\n".intercalate
      (((tokens.map (·.lexeme)).zipIdx 1).map fun (lexeme, n) =>
        s!"{n}. {lexeme.category}: \"{lexeme.value}\"") := by
    rw [List.zipIdx_map, List.map_map]
    rfl
  rw [hlisting tokens, hlisting tokens', h]

variable {file file' source source' : String} {tokens tokens' : List Token}

/-- Two sources have the same numbered view exactly if their tokens have the same
classes and values, one after the other. -/
theorem listing_eq_iff (h : Source.scan file source = .ok tokens)
    (h' : Source.scan file' source' = .ok tokens') :
    listing tokens = listing tokens' ↔ tokens.map (·.lexeme) = tokens'.map (·.lexeme) := by
  have hspelt := Source.wellSpelt_of_scan file h
  have hspelt' := Source.wellSpelt_of_scan file' h'
  constructor
  · intro hlisting
    apply entries_injective hspelt hspelt'
    exact entries_injective_of_listing hlisting
  · exact listing_eq_of_lexemes

/-- A text in quotes that looks like the end of its entry and a further one, and a
source that has this further token. -/
def awkward : String × String := ("likho \"5\n3. NUMBER: 7\"", "likho \"5\" 007")

/-- The quotes tell them apart, and leading zeros do not show. -/
theorem listing_eq_iff_awkward :
    (Source.scan "a" awkward.1).isOk = true ∧ (Source.scan "b" awkward.2).isOk = true ∧
      listing (Source.tokensD "a" awkward.1) ≠ listing (Source.tokensD "b" awkward.2) ∧
      (Source.scan "c" "likho\n\"5\"\t7").isOk = true ∧
      listing (Source.tokensD "b" awkward.2) =
        listing (Source.tokensD "c" "likho\n\"5\"\t7") := by
  have hfirst : (Source.scan "a" awkward.1).isOk = true := by decide +kernel
  have hsecond : (Source.scan "b" awkward.2).isOk = true := by decide +kernel
  have hthird : (Source.scan "c" "likho\n\"5\"\t7").isOk = true := by decide +kernel
  have hdiffer := listing_eq_iff (Source.scan_eq_of_isOk hfirst) (Source.scan_eq_of_isOk hsecond)
  have hagree := listing_eq_iff (Source.scan_eq_of_isOk hsecond) (Source.scan_eq_of_isOk hthird)
  refine ⟨hfirst, hsecond, ?_, hthird, ?_⟩
  · rw [ne_eq, hdiffer]
    decide +kernel
  · apply hagree.mpr
    decide +kernel

end Token

end Crafter
