import Crafter.Proofs.Depth
import Crafter.Proofs.Layout
import Crafter.Proofs.Lockstep

/-! Hints are found by phrases in the finished message. The messages quote the token
that may not stand where it does, so that a string can ask for hints by what it says;
apart from that, hints do not depend on strings. -/
namespace Crafter

namespace Text

/-- What contains no comma stands in front of a comma or behind it. -/
theorem occursIn_comma {part : List Char} (hne : part ≠ []) (hpart : ',' ∉ part)
    (before after : List Char) :
    occursIn part (before ++ ',' :: after) = (occursIn part before || occursIn part after) := by
  induction before with
  | nil =>
    have hempty : part.isEmpty = false := List.isEmpty_eq_false_iff.mpr hne
    have hstart : part.isPrefixOf (',' :: after) = false := by
      obtain ⟨c, rest, rfl⟩ := List.exists_cons_of_ne_nil hne
      have hc : (c == ',') = false := beq_false_of_ne (List.ne_of_not_mem_cons hpart).symm
      rw [List.isPrefixOf_cons_cons, hc, Bool.false_and]
    rw [List.nil_append, occursIn, occursIn, hstart, hempty]
  | cons c before ih =>
    have hstart : part.isPrefixOf (c :: before ++ ',' :: after) =
        part.isPrefixOf (c :: before) := by
      rw [Bool.eq_iff_iff, List.isPrefixOf_iff_prefix, List.isPrefixOf_iff_prefix]
      constructor
      · intro hprefix
        rcases Source.prefix_append_cases hprefix with h | ⟨rest, rfl, hrest⟩
        · exact h
        · cases rest with
          | nil => rw [List.append_nil]
          | cons d rest =>
            have hd : d = ',' := (List.cons_prefix_cons.mp hrest).1
            rw [hd] at hpart
            exact absurd (List.mem_append_right _ List.mem_cons_self) hpart
      · exact fun hprefix => hprefix.trans (List.prefix_append _ _)
    rw [List.cons_append] at hstart ⊢
    rw [occursIn, hstart, ih, occursIn, Bool.or_assoc]

end Text

namespace Diagnostic

/-- Hints depend on a message only by the phrases that it contains. -/
theorem suggestions_congr {message message' : String}
    (h : ∀ entry ∈ advice, ∀ phrase ∈ entry.1,
      Text.occursIn phrase.toList message.toList = Text.occursIn phrase.toList message'.toList) :
    suggestions message = suggestions message' := by
  unfold suggestions
  apply congrArg (List.map _)
  apply List.filter_congr
  intro entry hentry
  rw [Bool.eq_iff_iff, List.any_eq_true, List.any_eq_true]
  refine exists_congr fun phrase => and_congr_right fun hphrase => ?_
  rw [h entry hentry phrase hphrase]

/-- No phrase stands in what a message says of the token that is asked for. -/
theorem phrases_clear (wanted : Expected) : ∀ entry ∈ advice, ∀ phrase ∈ entry.1,
    phrase.toList ≠ [] ∧ ',' ∉ phrase.toList ∧
      Text.occursIn phrase.toList (" expected " ++ wanted.text).toList = false := by
  cases wanted with
  | brace side => cases side <;> decide +kernel
  | _ => decide +kernel

/-- The hints for a token that may not stand where it does. -/
def hintsFor (contents : String) : List String :=
  suggestions (SyntaxFault.strayToken contents).message

/-- What is asked for instead of the token gives no further hint. -/
theorem suggestions_unexpected (wanted : Option Expected) (contents : String) :
    suggestions (SyntaxFault.unexpected wanted contents).message = hintsFor contents := by
  cases wanted with
  | none => rfl
  | some wanted =>
    apply suggestions_congr
    intro entry hentry phrase hphrase
    obtain ⟨hne, hcomma, hwanted⟩ := phrases_clear wanted entry hentry phrase hphrase
    have hmessage : (SyntaxFault.unexpected (some wanted) contents).message.toList =
        (SyntaxFault.strayToken contents).message.toList ++
          ',' :: (" expected " ++ wanted.text).toList := by
      change ("Unexpected token '" ++ contents ++ "', expected " ++ wanted.text).toList =
        ("Unexpected token '" ++ contents ++ "'").toList ++ _
      simp only [String.toList_append, List.append_assoc]
      rfl
    rw [hmessage, Text.occursIn_comma hne hcomma, hwanted, Bool.or_false]

end Diagnostic

/-- Tokens of one class, which take the same characters unless they are strings. -/
def Token.SameApartFromStrings (t t' : Token) : Prop :=
  t.lexeme.category = t'.lexeme.category ∧
    (t.lexeme.category ≠ "STRING" → t.span.text = t'.span.text)

variable {file file' source source' : String} {tokens tokens' : List Token}

theorem Lexeme.exists_string {lexeme : Lexeme} (h : lexeme.category = "STRING") :
    ∃ contents, lexeme = .string contents := by
  cases lexeme with
  | string contents => exact ⟨contents, rfl⟩
  | _ => simp [category] at h

/-- The characters of a token tell what it says. -/
theorem Token.SameApartFromStrings.alike {t t' : Token} (h : t.SameApartFromStrings t')
    (hspelt : t.WellSpelt) (hspelt' : t'.WellSpelt) : t.lexeme.Alike t'.lexeme := by
  obtain ⟨hcategory, htext⟩ := h
  by_cases hstring : t.lexeme.category = "STRING"
  · obtain ⟨contents, hlexeme⟩ := Lexeme.exists_string hstring
    obtain ⟨contents', hlexeme'⟩ := Lexeme.exists_string (hcategory ▸ hstring)
    rw [hlexeme, hlexeme']
    exact .string contents contents'
  · unfold Token.WellSpelt at hspelt hspelt'
    rw [← htext hstring] at hspelt'
    rw [hspelt.lexeme_unique hspelt']
    exact .same _

namespace Source

theorem paired_of_scan (hscan : scan file source = .ok tokens)
    (hscan' : scan file' source' = .ok tokens')
    (hsame : List.Forall₂ Token.SameApartFromStrings tokens tokens') :
    List.Forall₂ (Token.Paired tokens tokens') tokens tokens' := by
  have hspelt := wellSpelt_of_scan file hscan
  have hspelt' := wellSpelt_of_scan file' hscan'
  rw [List.forall₂_iff_get] at hsame ⊢
  refine ⟨hsame.1, fun i hi hi' => ?_⟩
  have hmem : tokens.get ⟨i, hi⟩ ∈ tokens := List.get_mem ..
  have hmem' : tokens'.get ⟨i, hi'⟩ ∈ tokens' := List.get_mem ..
  exact ⟨hmem, hmem', (hsame.2 i hi hi').alike (hspelt _ hmem) (hspelt' _ hmem')⟩

end Source

/-- Errors that are alike have the same hints exactly if the strings that they quote
ask for the same hints. -/
theorem SyntaxError.Alike.suggestions_iff {e e' : SyntaxError} (h : e.Alike tokens tokens' e') :
    Diagnostic.suggestions e.diagnostic.message = Diagnostic.suggestions e'.diagnostic.message ↔
      ∀ contents contents', e.Quotes tokens contents → e'.Quotes tokens' contents' →
        Diagnostic.hintsFor contents = Diagnostic.hintsFor contents' := by
  have hquotes {tokens : List Token} {e : SyntaxError} {contents : String}
      (h : e.Quotes tokens contents) :
      Diagnostic.suggestions e.diagnostic.message = Diagnostic.hintsFor contents := by
    obtain ⟨_, _, _, _, wanted, hfault⟩ := h
    change Diagnostic.suggestions e.fault.message = _
    rw [hfault, Diagnostic.suggestions_unexpected]
  constructor
  · intro hsame contents contents' hcontents hcontents'
    rw [← hquotes hcontents, ← hquotes hcontents', hsame]
  · intro hsame
    rcases h with hfault | ⟨contents, contents', hcontents, hcontents'⟩
    · change Diagnostic.suggestions e.fault.message = Diagnostic.suggestions e'.fault.message
      rw [hfault]
    · rw [hquotes hcontents, hquotes hcontents', hsame _ _ hcontents hcontents']

namespace Program

theorem ofSource_error_of_scan (hscan : Source.scan file source = .ok tokens) {e : SyntaxError}
    (h : ofSource file source = .error (.malformed e)) :
    ∃ e₀, ofBalancedTokens tokens = .error e₀ ∧ e = e₀.within source := by
  unfold ofSource at h
  rw [hscan] at h
  dsimp only [bind, Except.bind] at h
  unfold ofTokensOf at h
  cases hparse : ofBalancedTokens tokens with
  | ok p =>
    rw [hparse] at h
    cases h
  | error e₀ =>
    rw [hparse] at h
    cases h
    exact ⟨e₀, rfl, rfl⟩

/-- Two sources that are refused, and whose tokens differ only in what their strings
say, get the same hints if and only if the strings that the two messages quote ask for
the same hints. In particular they do if one of the messages quotes no string. -/
theorem suggestions_eq_iff (hscan : Source.scan file source = .ok tokens)
    (hscan' : Source.scan file' source' = .ok tokens')
    (hsame : List.Forall₂ Token.SameApartFromStrings tokens tokens') {e e' : SyntaxError}
    (h : ofSource file source = .error (.malformed e))
    (h' : ofSource file' source' = .error (.malformed e')) :
    Diagnostic.suggestions e.diagnostic.message = Diagnostic.suggestions e'.diagnostic.message ↔
      ∀ contents contents', e.Quotes tokens contents → e'.Quotes tokens' contents' →
        Diagnostic.hintsFor contents = Diagnostic.hintsFor contents' := by
  obtain ⟨e₀, hparse, rfl⟩ := ofSource_error_of_scan hscan h
  obtain ⟨e₀', hparse', rfl⟩ := ofSource_error_of_scan hscan' h'
  have htogether := ofBalancedTokens_together (Source.paired_of_scan hscan hscan' hsame)
  rw [hparse, hparse'] at htogether
  cases htogether with
  | error halike =>
    exact halike.suggestions_iff

/-- The error that a source is refused with, if it is refused for one. -/
def refusal? (file source : String) : Option SyntaxError :=
  match ofSource file source with
  | .error (.malformed e) => some e
  | _ => none

theorem ofSource_of_refusal? {e : SyntaxError} (h : refusal? file source = some e) :
    ofSource file source = .error (.malformed e) := by
  unfold refusal? at h
  split at h
  · next hparse =>
    rw [hparse, Option.some.inj h]
  · cases h

/-- The one token of a source that is a string on its first line. -/
def loneString (contents : String) : Token :=
  ⟨.string contents, ⟨Source.unnamed, .first, ⟨1, contents.length + 2⟩, "\"" ++ contents ++ "\""⟩⟩

/-- The error for such a source. -/
def loneError (contents : String) : SyntaxError :=
  (SyntaxError.atToken (.strayToken contents) (loneString contents)).within
    ("\"" ++ contents ++ "\"")

theorem sameApartFromStrings_lone (contents contents' : String) :
    List.Forall₂ Token.SameApartFromStrings [loneString contents] [loneString contents'] :=
  .cons ⟨rfl, fun h => absurd rfl h⟩ .nil

theorem suggestions_eq_iff_lone :
    Source.scan Source.unnamed "\"a\"" = .ok [loneString "a"] ∧
      Source.scan Source.unnamed "\"b\"" = .ok [loneString "b"] ∧
      ofSource Source.unnamed "\"a\"" = .error (.malformed (loneError "a")) ∧
      ofSource Source.unnamed "\"b\"" = .error (.malformed (loneError "b")) ∧
      Diagnostic.suggestions (loneError "a").diagnostic.message =
        Diagnostic.suggestions (loneError "b").diagnostic.message := by
  have hscan : Source.scan Source.unnamed "\"a\"" = .ok [loneString "a"] := by decide +kernel
  have hscan' : Source.scan Source.unnamed "\"b\"" = .ok [loneString "b"] := by decide +kernel
  have herror : ofSource Source.unnamed "\"a\"" = .error (.malformed (loneError "a")) :=
    ofSource_of_refusal? (by decide +kernel)
  have herror' : ofSource Source.unnamed "\"b\"" = .error (.malformed (loneError "b")) :=
    ofSource_of_refusal? (by decide +kernel)
  have hiff := suggestions_eq_iff hscan hscan' (sameApartFromStrings_lone "a" "b") herror herror'
  refine ⟨hscan, hscan', herror, herror', hiff.mpr ?_⟩
  rintro contents contents' ⟨_, _, _, _, wanted, hfault⟩ ⟨_, _, _, _, wanted', hfault'⟩
  cases wanted <;> cases hfault
  cases wanted' <;> cases hfault'
  decide +kernel

/-- A string can ask for a hint that has nothing to do with the error: there is no brace
in these two sources, and only one of them gets the hint about braces. -/
theorem brace_hint_for_string :
    Source.scan Source.unnamed "\"a\"" = .ok [loneString "a"] ∧
      Source.scan Source.unnamed "\"closing brace\"" = .ok [loneString "closing brace"] ∧
      List.Forall₂ Token.SameApartFromStrings [loneString "a"] [loneString "closing brace"] ∧
      ofSource Source.unnamed "\"a\"" = .error (.malformed (loneError "a")) ∧
      ofSource Source.unnamed "\"closing brace\"" =
        .error (.malformed (loneError "closing brace")) ∧
      Diagnostic.suggestions (loneError "a").diagnostic.message = [] ∧
      Diagnostic.suggestions (loneError "closing brace").diagnostic.message =
        ["Every '\x7b' opening an 'agar', 'warna' or 'jabtak' block needs a matching '\x7d'"] :=
  ⟨by decide +kernel, by decide +kernel, sameApartFromStrings_lone _ _,
    ofSource_of_refusal? (by decide +kernel), ofSource_of_refusal? (by decide +kernel),
    by decide +kernel, by decide +kernel⟩

end Program

end Crafter
