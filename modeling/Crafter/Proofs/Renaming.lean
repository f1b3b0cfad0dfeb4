import Crafter.Proofs.Words
import Mathlib.Algebra.Group.End
import Mathlib.Data.Fintype.Sum
import Mathlib.Data.List.DropRight

/-! Other names for variables. A renaming exchanges names for one another and
touches no other text; applied to an expression it replaces the words that are
names. Cutting at operators, trimming and looking values up all commute with it,
so that an expression with other names has the value of the first one, in an
environment with other names. -/
namespace Crafter

open Lint Source

/-- A run of letters that is no keyword: what a variable may be called. -/
structure IsName (word : String) : Prop where
  nonempty : word.toList ≠ []
  alpha : ∀ c ∈ word.toList, c.isAlpha = true
  other : ∀ keyword : Keyword, keyword.spelling ≠ word

theorem isName_of_spelt {chars : List Char} {name : String}
    (h : Spelt chars (.identifier name)) : IsName name := by
  cases h with
  | identifier letters nonempty alpha other =>
    constructor
    · rwa [String.toList_ofList]
    · rwa [String.toList_ofList]
    · exact other

/-- Exchanges names for one another. -/
structure Renaming where
  word : Equiv.Perm String
  fixed : ∀ w, ¬ IsName w → word w = w

namespace Renaming

/-- Every name stays as it is. -/
def refl : Renaming := ⟨Equiv.refl String, fun _ _ => rfl⟩

/-- The renaming that undoes the first one. -/
def symm (ρ : Renaming) : Renaming where
  word := ρ.word.symm
  fixed w hw := (Equiv.symm_apply_eq ρ.word).mpr (ρ.fixed w hw).symm

theorem isName_word (ρ : Renaming) {w : String} (h : IsName w) : IsName (ρ.word w) := by
  -- otherwise the new word would be fixed, and so the old one, as no two words become one
  by_contra hnot
  have hsame : ρ.word w = w := ρ.word.injective (ρ.fixed (ρ.word w) hnot)
  rw [hsame] at hnot
  exact hnot h

/-- A map that keeps finitely many names apart extends to a renaming. -/
theorem exists_extension (names : Finset String) (r : String → String)
    (hold : ∀ v ∈ names, IsName v) (hnew : ∀ v ∈ names, IsName (r v))
    (injective : Set.InjOn r names) : ∃ ρ : Renaming, ∀ v ∈ names, ρ.word v = r v := by
  classical
  let all : Finset String := names ∪ names.image r
  have hall : ∀ v ∈ all, IsName v := by
    intro v hv
    rcases Finset.mem_union.mp hv with hv | hv
    · exact hold v hv
    · obtain ⟨u, hu, rfl⟩ := Finset.mem_image.mp hv
      exact hnew u hu
  have hmaps : Set.MapsTo (fun v : all => r v.val) {v | v.val ∈ names} all := by
    intro v hv
    exact Finset.mem_union_right _ (Finset.mem_image_of_mem r hv)
  have hinj : Set.InjOn (fun v : all => r v.val) {v | v.val ∈ names} := by
    intro v hv w hw heq
    exact Subtype.ext (injective hv hw heq)
  obtain ⟨g, hg⟩ := hmaps.exists_equiv_extend_of_card_eq (Fintype.card_coe all) hinj
  refine ⟨⟨Equiv.Perm.ofSubtype g, ?_⟩, ?_⟩
  · intro w hw
    exact Equiv.Perm.ofSubtype_apply_of_not_mem g fun hmem => hw (hall w hmem)
  · intro v hv
    have hmem : v ∈ all := Finset.mem_union_left _ hv
    calc Equiv.Perm.ofSubtype g v
      _ = g ⟨v, hmem⟩ := Equiv.Perm.ofSubtype_apply_of_mem g hmem
      _ = r v := hg ⟨v, hmem⟩ hv

/-- A word, given by its characters, under its new name. -/
def letters (ρ : Renaming) (word : List Char) : List Char :=
  (ρ.word (String.ofList word)).toList

theorem letters_nil (ρ : Renaming) : ρ.letters [] = [] := by
  have hfixed : ρ.word (String.ofList []) = String.ofList [] := by
    apply ρ.fixed
    intro h
    exact h.nonempty String.toList_ofList
  rw [letters, hfixed, String.toList_ofList]

theorem letters_alpha (ρ : Renaming) {word : List Char} (h : ∀ c ∈ word, c.isAlpha = true) :
    ∀ c ∈ ρ.letters word, c.isAlpha = true := by
  by_cases hname : IsName (String.ofList word)
  · exact (ρ.isName_word hname).alpha
  · rwa [letters, ρ.fixed _ hname, String.toList_ofList]

theorem symm_letters (ρ : Renaming) (word : List Char) :
    ρ.symm.letters (ρ.letters word) = word := by
  unfold letters
  rw [String.ofList_toList]
  exact (congrArg String.toList (ρ.word.symm_apply_apply _)).trans String.toList_ofList

/-- The text with its words renamed, after a word that is not complete yet. -/
def rewordAfter (ρ : Renaming) (word : List Char) : List Char → List Char
  | [] => ρ.letters word
  | c :: cs =>
    if c.isAlpha then ρ.rewordAfter (word ++ [c]) cs
    else ρ.letters word ++ c :: ρ.rewordAfter [] cs

/-- The text with its words renamed. -/
def reword (ρ : Renaming) (text : List Char) : List Char := ρ.rewordAfter [] text

/-- The text with its words renamed. -/
def text (ρ : Renaming) (text : String) : String := String.ofList (ρ.reword text.toList)

theorem toList_text (ρ : Renaming) (text : String) : (ρ.text text).toList = ρ.reword text.toList :=
  String.toList_ofList

theorem rewordAfter_letters (ρ : Renaming) (word : List Char) {text : List Char}
    (alpha : ∀ c ∈ text, c.isAlpha = true) :
    ρ.rewordAfter word text = ρ.letters (word ++ text) := by
  induction text generalizing word with
  | nil => rw [rewordAfter, List.append_nil]
  | cons c text ih =>
    have hrest : ∀ d ∈ text, d.isAlpha = true := fun d hd => alpha d (List.mem_cons_of_mem c hd)
    rw [rewordAfter, if_pos (alpha c List.mem_cons_self), ih (word ++ [c]) hrest, List.append_assoc]
    rfl

theorem rewordAfter_append_cons (ρ : Renaming) (word front : List Char) {c : Char}
    (hc : c.isAlpha = false) (rest : List Char) :
    ρ.rewordAfter word (front ++ c :: rest) = ρ.rewordAfter word front ++ c :: ρ.reword rest := by
  induction front generalizing word with
  | nil =>
    rw [List.nil_append, rewordAfter, rewordAfter, if_neg (Bool.eq_false_iff.mp hc)]
    rfl
  | cons d front ih =>
    rw [List.cons_append, rewordAfter, rewordAfter]
    split
    · exact ih (word ++ [d])
    · rw [ih [], List.append_assoc, List.cons_append]

theorem reword_letters (ρ : Renaming) {text : List Char} (alpha : ∀ c ∈ text, c.isAlpha = true) :
    ρ.reword text = ρ.letters text :=
  ρ.rewordAfter_letters [] alpha

/-- A character that is no letter stays where it is, between what it divides. -/
theorem reword_append_cons (ρ : Renaming) (front : List Char) {c : Char} (hc : c.isAlpha = false)
    (rest : List Char) : ρ.reword (front ++ c :: rest) = ρ.reword front ++ c :: ρ.reword rest :=
  ρ.rewordAfter_append_cons [] front hc rest

theorem reword_nil (ρ : Renaming) : ρ.reword [] = [] := ρ.letters_nil

theorem reword_cons (ρ : Renaming) {c : Char} (hc : c.isAlpha = false) (rest : List Char) :
    ρ.reword (c :: rest) = c :: ρ.reword rest := by
  have h := ρ.reword_append_cons [] hc rest
  rwa [reword_nil] at h

/-- Texts from left to right, a run of letters and the character after it at a
time. -/
theorem text_induction {motive : List Char → Prop}
    (run : ∀ letters, (∀ c ∈ letters, c.isAlpha = true) → motive letters)
    (divided : ∀ letters c rest, (∀ d ∈ letters, d.isAlpha = true) → c.isAlpha = false →
      motive letters → motive rest → motive (letters ++ c :: rest)) (text : List Char) :
    motive text := by
  suffices h : ∀ letters, (∀ c ∈ letters, c.isAlpha = true) → motive (letters ++ text) from
    h [] nofun
  induction text with
  | nil =>
    intro letters alpha
    rw [List.append_nil]
    exact run letters alpha
  | cons c text ih =>
    intro letters alpha
    by_cases hc : c.isAlpha = true
    · rw [List.append_cons]
      apply ih
      intro d hd
      rcases List.mem_append.mp hd with hd | hd
      · exact alpha d hd
      · rwa [List.mem_singleton.mp hd]
    · exact divided letters c text alpha (Bool.eq_false_iff.mpr hc) (run letters alpha)
        (ih [] nofun)

theorem reword_of_no_letter (ρ : Renaming) {text : List Char}
    (h : ∀ c ∈ text, c.isAlpha = false) : ρ.reword text = text := by
  induction text with
  | nil => exact ρ.reword_nil
  | cons c text ih =>
    rw [ρ.reword_cons (h c List.mem_cons_self), ih fun d hd => h d (List.mem_cons_of_mem c hd)]

theorem reword_refl (text : List Char) : refl.reword text = text := by
  induction text using text_induction with
  | run letters alpha => rw [reword_letters _ alpha]; exact String.toList_ofList
  | divided letters c rest _ hc hletters hrest =>
    rw [reword_append_cons _ _ hc, hletters, hrest]

/-- A text whose names are changed can be changed back. -/
theorem symm_reword (ρ : Renaming) (text : List Char) : ρ.symm.reword (ρ.reword text) = text := by
  induction text using text_induction with
  | run letters alpha =>
    rw [ρ.reword_letters alpha, ρ.symm.reword_letters (ρ.letters_alpha alpha), ρ.symm_letters]
  | divided letters c rest _ hc hletters hrest =>
    rw [ρ.reword_append_cons _ hc, ρ.symm.reword_append_cons _ hc, hletters, hrest]

@[simp] theorem text_refl (text : String) : refl.text text = text := by
  rw [Renaming.text, reword_refl, String.ofList_toList]

theorem symm_text (ρ : Renaming) (text : String) : ρ.symm.text (ρ.text text) = text := by
  rw [Renaming.text, toList_text, symm_reword, String.ofList_toList]

theorem text_symm (ρ : Renaming) (text : String) : ρ.text (ρ.symm.text text) = text :=
  ρ.symm.symm_text text

theorem text_injective (ρ : Renaming) : Function.Injective ρ.text :=
  Function.LeftInverse.injective ρ.symm_text

theorem text_of_alpha (ρ : Renaming) {word : String} (h : ∀ c ∈ word.toList, c.isAlpha = true) :
    ρ.text word = ρ.word word := by
  rw [Renaming.text, ρ.reword_letters h, letters, String.ofList_toList, String.ofList_toList]

/-! What the characters of a text are like is not changed where they are no
letters. As names can be changed back, it is enough to look at one direction. -/

theorem reword_eq_nil_iff (ρ : Renaming) (text : List Char) : ρ.reword text = [] ↔ text = [] := by
  constructor
  · intro h
    rw [← ρ.symm_reword text, h, reword_nil]
  · rintro rfl
    exact ρ.reword_nil

theorem all_alpha_reword (ρ : Renaming) (text : List Char) :
    (ρ.reword text).all Char.isAlpha = text.all Char.isAlpha := by
  have forth (ρ : Renaming) {text : List Char} (h : text.all Char.isAlpha = true) :
      (ρ.reword text).all Char.isAlpha = true := by
    have alpha : ∀ c ∈ text, c.isAlpha = true := List.all_eq_true.mp h
    rw [ρ.reword_letters alpha]
    exact List.all_eq_true.mpr (ρ.letters_alpha alpha)
  apply Bool.eq_iff_iff.mpr
  refine ⟨fun h => ?_, forth ρ⟩
  have hback := forth ρ.symm h
  rwa [symm_reword] at hback

theorem reword_of_digits (ρ : Renaming) {text : List Char} (h : text.all Char.isDigit = true) :
    ρ.reword text = text := by
  apply ρ.reword_of_no_letter
  intro c hc
  exact not_isAlpha_of_isDigit (List.all_eq_true.mp h c hc)

theorem ofDigits?_reword (ρ : Renaming) (text : List Char) :
    Number.ofDigits? (ρ.reword text) = Number.ofDigits? text := by
  by_cases h : text.all Char.isDigit = true
  · rw [ρ.reword_of_digits h]
  · have hnot : ¬ (ρ.reword text).all Char.isDigit = true := by
      intro hdigits
      have hsame := ρ.symm.reword_of_digits hdigits
      rw [symm_reword] at hsame
      exact h (hsame ▸ hdigits)
    unfold Number.ofDigits?
    rw [if_neg fun hand => hnot hand.2, if_neg fun hand => h hand.2]

theorem dropWhile_reword (ρ : Renaming) {p : Char → Bool}
    (hp : ∀ c, p c = true → c.isAlpha = false) (text : List Char) :
    (ρ.reword text).dropWhile p = ρ.reword (text.dropWhile p) := by
  induction text with
  | nil => rw [reword_nil, List.dropWhile_nil, reword_nil]
  | cons c text ih =>
    by_cases hc : p c = true
    · rw [ρ.reword_cons (hp c hc), List.dropWhile_cons_of_pos hc, List.dropWhile_cons_of_pos hc, ih]
    · rw [List.dropWhile_cons_of_neg hc]
      cases hreword : ρ.reword (c :: text) with
      | nil => rfl
      | cons d rest =>
        have hd : ¬ p d = true := by
          intro hd
          have hback := ρ.symm_reword (c :: text)
          rw [hreword, ρ.symm.reword_cons (hp d hd)] at hback
          cases hback
          exact hc hd
        rw [List.dropWhile_cons_of_neg hd]

theorem rdropWhile_reword (ρ : Renaming) {p : Char → Bool}
    (hp : ∀ c, p c = true → c.isAlpha = false) (text : List Char) :
    (ρ.reword text).rdropWhile p = ρ.reword (text.rdropWhile p) := by
  have append_single (ρ : Renaming) (front : List Char) {c : Char} (hc : p c = true) :
      ρ.reword (front ++ [c]) = ρ.reword front ++ [c] := by
    rw [ρ.reword_append_cons front (hp c hc), reword_nil]
  induction text using List.reverseRecOn with
  | nil => rw [reword_nil, List.rdropWhile_nil, reword_nil]
  | append_singleton text c ih =>
    by_cases hc : p c = true
    · rw [append_single ρ text hc, List.rdropWhile_concat_pos p _ _ hc,
        List.rdropWhile_concat_pos p _ _ hc, ih]
    · rw [List.rdropWhile_concat_neg p _ _ hc, List.rdropWhile_eq_self_iff]
      intro hne hlast
      have hreword := List.dropLast_append_getLast hne
      have hback := ρ.symm_reword (text ++ [c])
      rw [← hreword, append_single ρ.symm _ hlast] at hback
      rw [(List.append_singleton_inj.mp hback).2] at hlast
      exact hc hlast

theorem trim_reword (ρ : Renaming) (text : List Char) :
    Text.trim (ρ.reword text) = ρ.reword (Text.trim text) := by
  have hblank : ∀ c, Text.isBlank c = true → c.isAlpha = false := fun _ => not_isAlpha_of_isBlank
  change ((ρ.reword text).dropWhile Text.isBlank).rdropWhile Text.isBlank =
    ρ.reword ((text.dropWhile Text.isBlank).rdropWhile Text.isBlank)
  rw [ρ.dropWhile_reword hblank, ρ.rdropWhile_reword hblank]

theorem words_reword (ρ : Renaming) (text : List Char) :
    words (ρ.reword text) = (words text).map ρ.word := by
  induction text using text_induction with
  | run run alpha =>
    by_cases hnil : run = []
    · subst hnil
      rw [reword_nil]
      rfl
    · have hne : ρ.letters run ≠ [] := by
        rw [← ρ.reword_letters alpha]
        exact (ρ.reword_eq_nil_iff run).not.mpr hnil
      rw [ρ.reword_letters alpha, words_letters hne (ρ.letters_alpha alpha),
        words_letters hnil alpha, letters, String.ofList_toList]
      rfl
  | divided letters c rest _ hc hletters hrest =>
    rw [ρ.reword_append_cons _ hc, words_append_cons _ hc, words_append_cons _ hc, List.map_append,
      hletters, hrest]

theorem isNone_ofSpelling?_word (ρ : Renaming) (w : String) :
    (Keyword.ofSpelling? (ρ.word w)).isNone = (Keyword.ofSpelling? w).isNone := by
  by_cases hname : IsName w
  · rw [ofSpelling?_eq_none hname.other, ofSpelling?_eq_none (ρ.isName_word hname).other]
  · rw [ρ.fixed w hname]

theorem alpha_of_mem_words {text : List Char} {w : String} (h : w ∈ words text) :
    ∀ c ∈ w.toList, c.isAlpha = true := by
  induction text using text_induction with
  | run run alpha =>
    by_cases hnil : run = []
    · subst hnil
      cases h
    · rw [words_letters hnil alpha, List.mem_singleton] at h
      rwa [h, String.toList_ofList]
  | divided letters c rest _ hc hletters hrest =>
    rw [words_append_cons _ hc] at h
    exact (List.mem_append.mp h).elim hletters hrest

/-- The names in an expression are replaced, and what is no name is none under the
new names. -/
theorem namesIn_text (ρ : Renaming) (expression : String) :
    namesIn (ρ.text expression) = (namesIn expression).map ρ.text := by
  have hkeyword : (fun w => (Keyword.ofSpelling? w).isNone) ∘ ρ.word =
      fun w => (Keyword.ofSpelling? w).isNone := funext ρ.isNone_ofSpelling?_word
  calc namesIn (ρ.text expression)
    _ = (words (ρ.reword expression.toList)).filter fun w => (Keyword.ofSpelling? w).isNone := by
      rw [← toList_text]
      rfl
    _ = ((words expression.toList).filter fun w => (Keyword.ofSpelling? w).isNone).map ρ.word := by
      rw [words_reword, List.filter_map, hkeyword]
    _ = (namesIn expression).map ρ.text := by
      apply List.map_congr_left
      intro w hw
      exact (ρ.text_of_alpha (alpha_of_mem_words (List.mem_of_mem_filter hw))).symm

/-- The chain with the words of its operands renamed. -/
def chain (ρ : Renaming) (c : Chain) : Chain :=
  ⟨ρ.reword c.head, c.tail.map fun link => (link.1, ρ.reword link.2)⟩

theorem ofText_letters_append {letters : List Char} (alpha : ∀ c ∈ letters, c.isAlpha = true)
    (rest : List Char) : Chain.ofText (letters ++ rest) =
      ⟨letters ++ (Chain.ofText rest).head, (Chain.ofText rest).tail⟩ := by
  induction letters with
  | nil => rfl
  | cons c letters ih =>
    have hc : Arithmetic.ofChar? c = none := by
      cases hoperator : Arithmetic.ofChar? c with
      | none => rfl
      | some operator =>
        have halpha := alpha c List.mem_cons_self
        rw [not_isAlpha_of_ofChar? hoperator] at halpha
        cases halpha
    rw [List.cons_append, Chain.ofText, hc, ih fun d hd => alpha d (List.mem_cons_of_mem c hd)]
    rfl

/-- Renaming moves no operator: the operands are those of the first text, renamed. -/
theorem ofText_reword (ρ : Renaming) (text : List Char) :
    Chain.ofText (ρ.reword text) = ρ.chain (Chain.ofText text) := by
  have hrun {letters : List Char} (alpha : ∀ c ∈ letters, c.isAlpha = true) :
      Chain.ofText letters = ⟨letters, []⟩ := by
    have h := ofText_letters_append alpha []
    rwa [List.append_nil, Chain.ofText, List.append_nil] at h
  induction text using text_induction with
  | run letters alpha =>
    rw [hrun alpha, ρ.reword_letters alpha, hrun (ρ.letters_alpha alpha), chain,
      ρ.reword_letters alpha]
    rfl
  | divided letters c rest alpha hc _ hrest =>
    rw [ρ.reword_append_cons _ hc, ρ.reword_letters alpha,
      ofText_letters_append (ρ.letters_alpha alpha), ofText_letters_append alpha, Chain.ofText,
      Chain.ofText, hrest]
    cases Arithmetic.ofChar? c with
    | some operator =>
      dsimp only [chain]
      rw [List.append_nil, List.append_nil, ρ.reword_letters alpha]
      rfl
    | none =>
      dsimp only [chain]
      rw [ρ.reword_append_cons _ hc, ρ.reword_letters alpha]

end Renaming

/-- The environment with the values under other names. -/
def Environment.rename (f : String → String) (env : Environment) : Environment :=
  .ofList (env.entries.map fun e => (f e.1, e.2))

/-- The lexeme with its name changed, if it is a name. -/
def Lexeme.rename (f : String → String) : Lexeme → Lexeme
  | .identifier name => .identifier (f name)
  | lexeme => lexeme

/-- The fault with other names. -/
def Fault.rename (f : String → String) : Fault → Fault
  | .undefined name => .undefined (f name)
  | .missingOperand => .missingOperand
  | .invalidOperand text => .invalidOperand (f text)
  | .divisionByZero => .divisionByZero

namespace Environment

theorem lookupEntries_of_ne {name : String} {entries : List (String × Float)}
    (h : ∀ e ∈ entries, name ≠ e.1) : lookupEntries name entries = none := by
  induction entries with
  | nil => rfl
  | cons e entries ih =>
    rw [lookupEntries, if_neg (h e List.mem_cons_self).symm]
    exact ih fun e he => h e (List.mem_cons_of_mem _ he)

theorem get?_foldl_insert (entries : List (String × Float))
    (distinct : entries.Pairwise fun a b => a.1 ≠ b.1) (env : Environment) (name : String) :
    (entries.foldl (fun env (key, value) => env.insert key value) env).get? name =
      (lookupEntries name entries).or (env.get? name) := by
  induction entries generalizing env with
  | nil => rfl
  | cons e entries ih =>
    obtain ⟨key, value⟩ := e
    obtain ⟨hkey, hrest⟩ := List.pairwise_cons.mp distinct
    rw [List.foldl_cons, ih hrest, get?_insert, lookupEntries]
    by_cases heq : key = name
    · -- no later entry has the same name
      subst heq
      rw [lookupEntries_of_ne hkey, if_pos rfl, if_pos rfl]
      rfl
    · rw [if_neg heq, if_neg heq]

theorem lookupEntries_map {f : String → String} (injective : Function.Injective f)
    (entries : List (String × Float)) (name : String) :
    lookupEntries (f name) (entries.map fun e => (f e.1, e.2)) = lookupEntries name entries := by
  induction entries with
  | nil => rfl
  | cons e entries ih =>
    rw [List.map_cons, lookupEntries, lookupEntries, ih]
    simp only [injective.eq_iff]

theorem get?_rename {f : String → String} (injective : Function.Injective f) (env : Environment)
    (name : String) : (env.rename f).get? (f name) = env.get? name := by
  have distinct : (env.entries.map fun e => (f e.1, e.2)).Pairwise fun a b => a.1 ≠ b.1 := by
    apply List.pairwise_map.mpr
    apply env.ascending.imp
    intro a b hlt heq
    exact String.lt_irrefl _ (injective heq ▸ hlt)
  have h := get?_foldl_insert _ distinct empty (f name)
  rw [lookupEntries_map injective, get?_empty, Option.or_none] at h
  exact h

theorem rename_empty (f : String → String) : empty.rename f = empty := rfl

variable (ρ : Renaming)

theorem ext_text {a b : Environment} (h : ∀ name, a.get? (ρ.text name) = b.get? (ρ.text name)) :
    a = b := by
  apply ext_get?
  intro name
  rw [← ρ.text_symm name]
  exact h (ρ.symm.text name)

theorem rename_insert (env : Environment) (name : String) (x : Float) :
    (env.insert name x).rename ρ.text = (env.rename ρ.text).insert (ρ.text name) x := by
  apply ext_text ρ
  intro other
  rw [get?_rename ρ.text_injective, get?_insert, get?_insert, get?_rename ρ.text_injective]
  simp only [ρ.text_injective.eq_iff]

theorem operand_rename (env : Environment) (text : List Char) :
    (env.rename ρ.text).operand (ρ.reword text) =
      (env.operand text).mapError (Fault.rename ρ.text) := by
  have htext : String.ofList (ρ.reword text) = ρ.text (String.ofList text) := by
    rw [Renaming.text, String.toList_ofList]
  unfold operand
  rw [ρ.ofDigits?_reword, ρ.all_alpha_reword, htext, get?_rename ρ.text_injective]
  simp only [ρ.reword_eq_nil_iff]
  split
  · rfl
  split
  · rfl
  split
  · split <;> rfl
  · rfl

theorem applyLink_rename (env : Environment) (x : Float) (link : Arithmetic × List Char) :
    (env.rename ρ.text).applyLink x (link.1, ρ.reword link.2) =
      (env.applyLink x link).mapError (Fault.rename ρ.text) := by
  unfold applyLink
  rw [ρ.trim_reword, operand_rename]
  cases env.operand (Text.trim link.2) with
  | error fault => rfl
  | ok y =>
    dsimp only [Except.mapError]
    cases link.1.result? x y <;> rfl

theorem links_rename (env : Environment) (links : List (Arithmetic × List Char)) (x : Float) :
    (links.map fun link => (link.1, ρ.reword link.2)).foldlM (env.rename ρ.text).applyLink x =
      (links.foldlM env.applyLink x).mapError (Fault.rename ρ.text) := by
  induction links generalizing x with
  | nil => rfl
  | cons link links ih =>
    rw [List.map_cons, List.foldlM_cons, List.foldlM_cons, applyLink_rename]
    cases env.applyLink x link with
    | error fault => rfl
    | ok y => exact ih y

/-- The value of an expression does not depend on what its variables are called. -/
theorem eval_rename (env : Environment) (expression : String) :
    (env.rename ρ.text).eval (ρ.text expression) =
      (env.eval expression).mapError (Fault.rename ρ.text) := by
  unfold eval
  rw [ρ.toList_text, ρ.ofText_reword]
  dsimp only [Renaming.chain]
  rw [ρ.trim_reword, operand_rename]
  cases env.operand (Text.trim (Chain.ofText expression.toList).head) with
  | error fault => rfl
  | ok x => exact links_rename ρ env _ x

end Environment

end Crafter
