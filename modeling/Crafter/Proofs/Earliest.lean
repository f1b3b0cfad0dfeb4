import Crafter.Program.Parse
import Crafter.Proofs.Completion
import Crafter.Proofs.Scanning

/-! Errors are reported as early as they can be. The tokens before the one that
an error blames begin a program, and whatever follows that token, the error
stays; an error at the end of the tokens is one that more tokens repair. -/
namespace Crafter

open Grammar

/-- The words that the message for a fault begins with. -/
def SyntaxFault.heading : SyntaxFault → String
  | .openString => "Unterminated string literal"
  | .strayCharacter _ => "Unexpected character"
  | .strayClosing => "Unmatched"
  | .openBlock => "Missing closing brace"
  | .strayToken _ | .wrongToken .. => "Unexpected token"
  | .endOfInput _ => "Unexpected end of input"
  | .notComparison _ => "Unexpected operator"
  | .noValue _ => "Expected expression after"

/-- The words that the parser's errors begin with. -/
def SyntaxFault.headings : List String :=
  ["Unexpected token", "Unexpected operator", "Unexpected end of input", "Missing closing brace",
    "Expected expression after"]

/-- The message of the error begins with the words. -/
def SyntaxError.Says (e : SyntaxError) (words : String) : Prop :=
  words.toList <+: e.diagnostic.message.toList

theorem toList_append_starts {words a : String} (h : words.toList <+: a.toList) (b : String) :
    words.toList <+: (a ++ b).toList := by
  rw [String.toList_append]
  exact h.trans (List.prefix_append _ _)

theorem SyntaxFault.message_starts (fault : SyntaxFault) :
    fault.heading.toList <+: fault.message.toList := by
  -- messages that quote the source cannot be computed; what they begin with can
  cases fault with
  | openString | strayClosing | openBlock => decide
  | noValue declared => cases declared <;> decide
  | strayCharacter c =>
    have hwords : "Unexpected character".toList <+: "Unexpected character '".toList := by decide
    exact toList_append_starts (toList_append_starts hwords _) _
  | strayToken value =>
    have hwords : "Unexpected token".toList <+: "Unexpected token '".toList := by decide
    exact toList_append_starts (toList_append_starts hwords _) _
  | wrongToken value expected =>
    have hwords : "Unexpected token".toList <+: "Unexpected token '".toList := by decide
    exact toList_append_starts (toList_append_starts (toList_append_starts hwords _) _) _
  | endOfInput expected =>
    have hwords : "Unexpected end of input".toList <+:
        "Unexpected end of input, expected ".toList := by decide
    exact toList_append_starts hwords _
  | notComparison operator =>
    have hwords : "Unexpected operator".toList <+: "Unexpected operator '".toList := by decide
    exact toList_append_starts (toList_append_starts hwords _) _

theorem SyntaxError.says_heading (e : SyntaxError) : e.Says e.fault.heading :=
  e.fault.message_starts

/-- A message begins with one heading only. -/
theorem SyntaxError.heading_eq_of_says {e : SyntaxError} {words : String}
    (he : e.fault.heading ∈ SyntaxFault.headings) (hwords : words ∈ SyntaxFault.headings)
    (h : e.Says words) : e.fault.heading = words := by
  have hfree : ∀ a ∈ SyntaxFault.headings, ∀ b ∈ SyntaxFault.headings,
      a.toList <+: b.toList → a = b := by decide
  rcases List.prefix_or_prefix_of_prefix e.says_heading h with hle | hle
  · exact hfree _ he _ hwords hle
  · exact (hfree _ hwords _ he hle).symm

/-- Tokens after which an expression has to follow, and the error if none does:
it stands at the name of a declaration, or at `likho`. -/
inductive Program.AwaitsExpression : List Token → SyntaxError → Prop where
  | declaration (us : List Token) {target equals : Token} {name : String}
      (htarget : target.lexeme = .identifier name) (hequals : equals.lexeme = .operator "=") :
      AwaitsExpression (us ++ [target, equals]) (.atToken (.noValue true) target)
  | print (us : List Token) {keyword : Token} (hkeyword : keyword.lexeme = .keyword .print) :
      AwaitsExpression (us ++ [keyword]) (.atToken (.noValue false) keyword)

/-- The error blames a token of the list, and no other starts where that one does.
The tokens before it begin a program; with it the error is there to stay. -/
def Program.Misplaced (tokens : List Token) (e : SyntaxError) : Prop :=
  ∃ i t, tokens[i]? = some t ∧ e = .atToken e.fault t ∧
    (∀ j u, tokens[j]? = some u → u.span.start = e.start → j = i) ∧
    Begins (tokens.take i) ∧ ∀ more, ofTokens (tokens.take (i + 1) ++ more) = .error e

/-- The tokens run out where an expression has to follow, and begin a program; or
they go on there with a token that stands in no expression, and with it the
error is there to stay. -/
def Program.LacksExpression (tokens : List Token) (e : SyntaxError) : Prop :=
  (AwaitsExpression tokens e ∧ Begins tokens) ∨
    ∃ i t, tokens[i]? = some t ∧ AwaitsExpression (tokens.take i) e ∧
      t.lexeme.inExpression = false ∧ ∀ more, ofTokens (tokens.take (i + 1) ++ more) = .error e

/-- The error is the earliest one that the tokens allow, by what its message
begins with. -/
structure Program.Earliest (tokens : List Token) (e : SyntaxError) : Prop where
  heading : ∃ words ∈ SyntaxFault.headings, e.Says words
  misplaced : e.Says "Unexpected token" ∨ e.Says "Unexpected operator" → Misplaced tokens e
  unfinished : e.Says "Unexpected end of input" ∨ e.Says "Missing closing brace" → Begins tokens
  missing : e.Says "Expected expression after" → LacksExpression tokens e

namespace Reading

/-- Where an expression is missing, the tokens so far end in what asks for it. -/
theorem awaitsExpression_of_lacks {r : Reading} {ts : List Token} {e : SyntaxError}
    (hr : r.Covers ts) (h : r.Lacks e) : Program.AwaitsExpression ts e := by
  obtain ⟨blocks, d, complete, mode⟩ := hr
  rw [← List.append_assoc]
  cases h with
  | declaration hmode =>
    rw [hmode] at mode
    generalize hparts : ([] : List String) = parts at mode
    cases mode with
    | expression howner tokens plain =>
      have htokens : tokens = [] := by simpa using hparts
      subst htokens
      cases howner with
      | declaration keyword name target equals =>
        rw [List.append_nil, List.append_cons]
        exact .declaration _ target.property equals.property
  | print hmode =>
    rcases hmode with hmode | hmode
    · rw [hmode] at mode
      cases mode with
      | printing keyword => exact .print _ keyword.property
    · rw [hmode] at mode
      generalize hparts : ([] : List String) = parts at mode
      cases mode with
      | expression howner tokens plain =>
        have htokens : tokens = [] := by simpa using hparts
        subst htokens
        cases howner with
        | print keyword =>
          rw [List.append_nil]
          exact .print _ keyword.property

/-- The token before which an expression is missing stands in none. -/
theorem not_inExpression_of_lacks {r : Reading} {t : Token} {e : SyntaxError} (h : r.Lacks e)
    (hc : r.continues t = false) : t.lexeme.inExpression = false := by
  rw [← Bool.not_eq_true] at hc ⊢
  intro ht
  apply hc
  cases h with
  | declaration hmode => rw [continues_expression hmode, ht]
  | print hmode =>
    rcases hmode with hmode | hmode
    · exact (continues_printing hmode t).mpr (Or.inr ht)
    · rw [continues_expression hmode, ht]

end Reading

namespace Program

open Reading

/-- No two tokens of a source start at the same place. -/
theorem getElem?_start_injective {tokens : List Token}
    (h : tokens.Pairwise fun a b => a.span.start.Before b.span.start) {i j : Nat} {t u : Token}
    (ht : tokens[i]? = some t) (hu : tokens[j]? = some u) (he : t.span.start = u.span.start) :
    i = j := by
  have hnodup : (tokens.map (·.span.start)).Nodup :=
    Position.nodup_of_pairwise_before (List.pairwise_map.mpr h)
  obtain ⟨hi, _⟩ := List.getElem?_eq_some_iff.mp ht
  apply (List.getElem?_inj (by rwa [List.length_map]) hnodup).mp
  rw [List.getElem?_map, List.getElem?_map, ht, hu, Option.map_some, Option.map_some, he]

/-- What follows the token at which the parser fails makes no difference. -/
theorem ofTokens_of_step_error {us : List Token} {r : Reading} {t : Token} {e : SyntaxError}
    (hrun : start.run us = .ok r) (hstep : r.step t = .error e) (more : List Token) :
    ofTokens (us ++ [t] ++ more) = .error e := by
  have hfail : start.run (us ++ [t] ++ more) = .error e := by
    rw [List.append_assoc, run_append_ok hrun, List.singleton_append, run_cons, hstep]
    rfl
  change (start.run (us ++ [t] ++ more) >>= finish) = _
  rw [hfail]
  rfl

/-- It is enough to know which words the message begins with. -/
theorem earliest_of_heading {tokens : List Token} {e : SyntaxError} {words : String}
    (hwords : e.fault.heading = words) (hmem : words ∈ SyntaxFault.headings)
    (misplaced : words ∈ ["Unexpected token", "Unexpected operator"] → Misplaced tokens e)
    (unfinished : words ∈ ["Unexpected end of input", "Missing closing brace"] → Begins tokens)
    (missing : words = "Expected expression after" → LacksExpression tokens e) :
    Earliest tokens e := by
  subst hwords
  have heading {other : String} (h : e.Says other) (hother : other ∈ SyntaxFault.headings) :
      e.fault.heading = other := SyntaxError.heading_eq_of_says hmem hother h
  refine ⟨⟨_, hmem, e.says_heading⟩, ?_, ?_, fun h => missing (heading h (by decide))⟩
  · intro h
    apply misplaced
    rcases h with h | h <;> rw [heading h (by decide)] <;> decide
  · intro h
    apply unfinished
    rcases h with h | h <;> rw [heading h (by decide)] <;> decide

/-- A token that the parser rejects is one that no program has at its place. -/
theorem misplaced_of_rejects {us : List Token} {t : Token} {vs : List Token} {q : Reading}
    {e : SyntaxError} (hplaces : (us ++ t :: vs).Pairwise fun a b =>
      a.span.start.Before b.span.start) (hrejects : q.Rejects t e) (hbegins : Begins us)
    (hstays : ∀ more, ofTokens (us ++ [t] ++ more) = .error e) :
    Misplaced (us ++ t :: vs) e := by
  have htoken : (us ++ t :: vs)[us.length]? = some t := by simp
  have hblame : e = .atToken e.fault t := by cases hrejects <;> rfl
  refine ⟨us.length, t, htoken, hblame, ?_, ?_, ?_⟩
  · intro j u hu hplace
    rw [hblame] at hplace
    exact getElem?_start_injective hplaces hu htoken hplace
  · rwa [List.take_left]
  · rwa [List.take_length_add_append, List.take_one, List.head?_cons]

theorem lacksExpression_of_lacks {us : List Token} {t : Token} {vs : List Token} {q : Reading}
    {e : SyntaxError} (hcovers : q.Covers us) (hlacks : q.Lacks e) (hc : q.continues t = false)
    (hstays : ∀ more, ofTokens (us ++ [t] ++ more) = .error e) :
    LacksExpression (us ++ t :: vs) e := by
  have hawaits := awaitsExpression_of_lacks hcovers hlacks
  refine Or.inr ⟨us.length, t, by simp, ?_, not_inExpression_of_lacks hlacks hc, ?_⟩
  · rwa [List.take_left]
  · rwa [List.take_length_add_append, List.take_one, List.head?_cons]

/-- An error at a token shows that no program goes on so. -/
theorem earliest_of_step_error {us : List Token} {t : Token} {vs : List Token} {q : Reading}
    {e : SyntaxError} (hplaces : (us ++ t :: vs).Pairwise fun a b =>
      a.span.start.Before b.span.start) (hrun : start.run us = .ok q)
    (hstep : q.step t = .error e) : Earliest (us ++ t :: vs) e := by
  have hbegins := begins_of_run hrun
  have hstays := ofTokens_of_step_error hrun hstep
  rcases step_error hstep with ⟨hc, hlacks⟩ | ⟨q', _, hrejects⟩
  · have hmissing : LacksExpression (us ++ t :: vs) e :=
      lacksExpression_of_lacks (covers_run covers_start hrun) hlacks hc hstays
    have hwords : e.fault.heading = "Expected expression after" := by
      obtain ⟨declared, u, rfl⟩ := noValue_of_lacks hlacks
      rfl
    exact earliest_of_heading hwords (by decide) (fun h => absurd h (by decide))
      (fun h => absurd h (by decide)) fun _ => hmissing
  · have hmisplaced := misplaced_of_rejects hplaces hrejects hbegins hstays
    have hwords : e.fault.heading = "Unexpected token" ∨
        e.fault.heading = "Unexpected operator" := by
      cases hrejects with
      | wrongToken | strayToken => exact Or.inl rfl
      | notComparison => exact Or.inr rfl
    rcases hwords with hwords | hwords <;>
      exact earliest_of_heading hwords (by decide) (fun _ => hmisplaced)
        (fun h => absurd h (by decide)) fun h => absurd h (by decide)

/-- An error at the end of the tokens shows that a program could go on there. -/
theorem earliest_of_finish_error {tokens : List Token} {q : Reading} {e : SyntaxError}
    (hrun : start.run tokens = .ok q) (h : q.finish = .error e) : Earliest tokens e := by
  have hbegins := begins_of_run hrun
  rcases finish_error h with ⟨wanted, rfl⟩ | hlacks | ⟨block, outer, _, rfl⟩
  · have hwords : (SyntaxError.atLast (.endOfInput wanted) q.last).fault.heading =
        "Unexpected end of input" := by cases q.last <;> rfl
    exact earliest_of_heading hwords (by decide) (fun h => absurd h (by decide)) (fun _ => hbegins)
      fun h => absurd h (by decide)
  · have hawaits := awaitsExpression_of_lacks (covers_run covers_start hrun) hlacks
    have hwords : e.fault.heading = "Expected expression after" := by
      obtain ⟨declared, u, rfl⟩ := noValue_of_lacks hlacks
      rfl
    exact earliest_of_heading hwords (by decide) (fun h => absurd h (by decide))
      (fun h => absurd h (by decide)) fun _ => Or.inl ⟨hawaits, hbegins⟩
  · have hwords : (SyntaxError.atToken .openBlock block.opener).fault.heading =
        "Missing closing brace" := rfl
    exact earliest_of_heading hwords (by decide) (fun h => absurd h (by decide)) (fun _ => hbegins)
      fun h => absurd h (by decide)

/-- The parser's errors are the earliest ones: it never blames a token that could
still be part of a program, and never reads past one that could not. -/
theorem ofTokens_error_earliest {file source : String} {tokens : List Token}
    (hscan : Source.scan file source = .ok tokens) {e : SyntaxError}
    (h : ofTokens tokens = .error e) : Earliest tokens e := by
  have hplaces := Source.pairwise_of_scan file hscan
  change (start.run tokens >>= finish) = _ at h
  cases hrun : start.run tokens with
  | error e' =>
    rw [hrun] at h
    cases h
    obtain ⟨us, t, vs, q, rfl, hus, hstep⟩ := run_error hrun
    exact earliest_of_step_error hplaces hus hstep
  | ok q =>
    rw [hrun] at h
    exact earliest_of_finish_error hrun h

end Program

namespace Sample

/-- A second block that is begun inside the first one. -/
def brokenSource : String := "agar x < 3 \x7b\n  likho x\n  warna \x7b \x7d"

def brokenTokens : List Token :=
  match Source.scan Source.unnamed brokenSource with
  | .ok tokens => tokens
  | .error _ => []

theorem scan_broken : Source.scan Source.unnamed brokenSource = .ok brokenTokens := by
  decide +kernel

def brokenError : SyntaxError := ⟨.strayToken "warna", ⟨3, 3⟩, some ⟨3, 7⟩, none⟩

def errorOf? : Except SyntaxError Program → Option SyntaxError
  | .error e => some e
  | .ok _ => none

theorem ofTokens_broken : Program.ofTokens brokenTokens = .error brokenError := by
  have herror : errorOf? (Program.ofTokens brokenTokens) = some brokenError := by decide +kernel
  cases h : Program.ofTokens brokenTokens with
  | ok p =>
    rw [h] at herror
    cases herror
  | error e =>
    rw [h] at herror
    rw [Option.some.inj herror]

end Sample

theorem Program.ofTokens_error_earliest_sample :
    Source.scan Source.unnamed Sample.brokenSource = .ok Sample.brokenTokens ∧
    ofTokens Sample.brokenTokens = .error Sample.brokenError ∧
    Sample.brokenError.diagnostic.message = "Unexpected token 'warna'" ∧
    Misplaced Sample.brokenTokens Sample.brokenError :=
  ⟨Sample.scan_broken, Sample.ofTokens_broken, by decide,
    (ofTokens_error_earliest Sample.scan_broken Sample.ofTokens_broken).misplaced
      (Or.inl Sample.brokenError.says_heading)⟩

end Crafter
