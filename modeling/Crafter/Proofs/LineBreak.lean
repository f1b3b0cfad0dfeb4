import Crafter.Proofs.Tiling

/-! Texts that stand below one another. A line feed parts the tokens before it
from those after it, and a scan further down finds the same tokens there. -/
namespace Crafter

def Span.relocate (f : Position → Position) (s : Span) : Span :=
  { s with start := f s.start, stop := f s.stop }

/-- The token at the place that `f` gives for its place. -/
def Token.relocate (f : Position → Position) (t : Token) : Token :=
  { t with span := t.span.relocate f }

/-- The error at the place that `f` gives for its place. -/
def SyntaxError.relocate (f : Position → Position) (e : SyntaxError) : SyntaxError :=
  { e with start := f e.start, stop := e.stop.map f }

def Failure.relocate (f : Position → Position) : Failure → Failure
  | .malformed e => .malformed (e.relocate f)
  | failure => failure

namespace Position

theorem map_advanceAll {f : Position → Position} (hf : ∀ p c, f (p.advance c) = (f p).advance c)
    (p : Position) (cs : List Char) : f (p.advanceAll cs) = (f p).advanceAll cs := by
  induction cs generalizing p with
  | nil => rfl
  | cons c cs ih => rw [advanceAll_cons, advanceAll_cons, ih, hf]

end Position

namespace Source

/-- A scan from another place, and of another file, finds the same tokens there. -/
theorem scanFrom_elsewhere {file other : String} {f : Position → Position} {g : Token → Token}
    (hf : ∀ p c, f (p.advance c) = (f p).advance c)
    (hg : ∀ lexeme p cs, g ⟨lexeme, .ofChars file p cs⟩ = ⟨lexeme, .ofChars other (f p) cs⟩)
    (p : Position) (cs : List Char) :
    scanFrom other (f p) cs =
      ((scanFrom file p cs).mapError (Failure.relocate f)).map (List.map g) := by
  -- along the scan: which piece is read does not depend on the place
  induction p, cs using scanFrom.induct file with
  | case1 p =>
    rw [scanFrom, scanFrom]
    rfl
  | case2 p c cs hc ih =>
    rw [scanFrom, scanFrom, if_pos hc, if_pos hc, ← hf]
    exact ih
  | case3 p c cs hc obstacle hread =>
    have solid : isGap c = false := by simpa using hc
    rw [scanFrom_obstacle file p solid hread, scanFrom_obstacle other (f p) solid hread]
    cases obstacle <;> rfl
  | case4 p c cs hc piece hread hle failure hfailure ih =>
    have solid : isGap c = false := by simpa using hc
    rw [scanFrom_piece file p solid hread, scanFrom_piece other (f p) solid hread, hfailure,
      ← Position.map_advanceAll hf, ih, hfailure]
    rfl
  | case5 p c cs hc piece hread hle tokens htokens ih =>
    have solid : isGap c = false := by simpa using hc
    rw [scanFrom_piece file p solid hread, scanFrom_piece other (f p) solid hread, htokens,
      ← Position.map_advanceAll hf, ih, htokens, ← hg]
    rfl

variable (file : String)

theorem scanFrom_relocate {f : Position → Position}
    (hf : ∀ p c, f (p.advance c) = (f p).advance c) (p : Position) (cs : List Char) :
    scanFrom file (f p) cs = ((scanFrom file p cs).mapError (Failure.relocate f)).map
      (List.map (Token.relocate f)) := by
  refine scanFrom_elsewhere hf (fun lexeme p cs => ?_) p cs
  unfold Token.relocate Span.relocate Span.ofChars
  rw [Position.map_advanceAll hf]

theorem not_extends_line (chars : List Char) : ¬ Extends chars '\n' := by
  intro h
  cases h with
  | letter _ next => exact absurd next (by decide)
  | digit _ next => exact absurd next (by decide)

/-- No token runs over the end of its text into what follows a line feed. -/
theorem readPiece_line {c : Char} {cs : List Char} {piece : Piece}
    (h : readPiece c cs = .ok piece) (ds : List Char) :
    readPiece c (cs ++ '\n' :: ds) =
      .ok ⟨piece.lexeme, piece.chars, piece.rest ++ '\n' :: ds⟩ := by
  obtain ⟨spelt, longest⟩ := sound_of_readPiece h
  obtain ⟨body, hchars, hcs⟩ := readPiece_chars h
  apply readPiece_of_spelt spelt
  · -- what follows the token is what followed it before, or else the line feed
    intro d hd
    cases hrest : piece.rest with
    | nil =>
      rw [hrest] at hd
      cases hd
      exact not_extends_line piece.chars
    | cons e rest =>
      rw [hrest] at hd longest
      exact longest d hd
  · rw [hchars, ← hcs, List.cons_append, List.append_assoc]

/-- Tokens, a line feed, and a text: a scan gives the tokens and goes on with
the text. -/
theorem scanFrom_line {p : Position} {cs : List Char} {tokens : List Token}
    (h : scanFrom file p cs = .ok tokens) (ds : List Char) :
    scanFrom file p (cs ++ '\n' :: ds) =
      (scanFrom file (p.advanceAll (cs ++ ['\n'])) ds).map (tokens ++ ·) := by
  induction p, cs using scanFrom.induct file generalizing tokens with
  | case1 p =>
    rw [scanFrom] at h
    cases h
    rw [List.nil_append, scanFrom, if_pos (by decide)]
    change scanFrom file (p.advance '\n') ds = (scanFrom file (p.advance '\n') ds).map ([] ++ ·)
    cases scanFrom file (p.advance '\n') ds <;> rfl
  | case2 p c cs hc ih =>
    rw [scanFrom, if_pos hc] at h
    rw [List.cons_append, List.cons_append, scanFrom, if_pos hc, ih h]
    rfl
  | case3 p c cs hc obstacle hread =>
    have solid : isGap c = false := by simpa using hc
    rw [scanFrom_obstacle file p solid hread] at h
    cases h
  | case4 p c cs hc piece hread hle failure hfailure ih =>
    have solid : isGap c = false := by simpa using hc
    rw [scanFrom_piece file p solid hread, hfailure] at h
    cases h
  | case5 p c cs hc piece hread hle rest hrest ih =>
    have solid : isGap c = false := by simpa using hc
    obtain ⟨body, hchars, hcs⟩ := readPiece_chars hread
    rw [scanFrom_piece file p solid hread, hrest] at h
    cases h
    have hplace : (p.advanceAll piece.chars).advanceAll (piece.rest ++ ['\n']) =
        p.advanceAll (c :: cs ++ ['\n']) := by
      rw [← Position.advanceAll_append, ← List.append_assoc, hchars, ← hcs, List.cons_append]
    have hpiece := scanFrom_piece file p solid (readPiece_line hread ds)
    dsimp only at hpiece
    rw [ih hrest, hplace] at hpiece
    rw [List.cons_append, hpiece]
    cases scanFrom file (p.advanceAll (c :: cs ++ ['\n'])) ds <;> rfl

theorem scanFrom_of_scan {source : String} {tokens : List Token}
    (h : scan file source = .ok tokens) : scanFrom file .first source.toList = .ok tokens := by
  unfold scan at h
  split at h
  · cases h
  · cases h
  · next hscan =>
    cases h
    exact hscan

theorem scan_of_scanFrom {source : String} {tokens : List Token}
    (h : scanFrom file .first source.toList = .ok tokens) : scan file source = .ok tokens := by
  unfold scan
  rw [h]

/-- The tokens of a source, where lines stand above it. -/
theorem scanFrom_down {source : String} {tokens : List Token}
    (h : scan file source = .ok tokens) (lines : Nat) :
    scanFrom file (Position.first.down lines) source.toList =
      .ok (tokens.map (Token.relocate (Position.down lines))) := by
  rw [scanFrom_relocate file (Position.down_advance lines), scanFrom_of_scan file h]
  rfl

theorem first_down_advanceAll (cs : List Char) :
    Position.first.advanceAll (cs ++ ['\n']) = Position.first.down (cs.count '\n' + 1) := by
  have h := Position.advanceAll_line cs 0
  rw [Nat.zero_add] at h
  exact h

/-- What a scan of two texts with a line feed between them gives, if the first one has
tokens: nothing but places tells it from a scan of the second text. -/
theorem scanFrom_below {a : String} {tokens : List Token} (h : scan file a = .ok tokens)
    (b : String) :
    scanFrom file .first (a ++ "\n" ++ b).toList =
      (((scanFrom file .first b.toList).mapError
          (Failure.relocate (Position.down (a.toList.count '\n' + 1)))).map
        (List.map (Token.relocate (Position.down (a.toList.count '\n' + 1))))).map
          (tokens ++ ·) := by
  have htext : (a ++ "\n" ++ b).toList = a.toList ++ '\n' :: b.toList := by
    rw [String.toList_append, String.toList_append, List.append_assoc]
    rfl
  calc scanFrom file .first (a ++ "\n" ++ b).toList
    _ = (scanFrom file (Position.first.advanceAll (a.toList ++ ['\n'])) b.toList).map
          (tokens ++ ·) := by
      rw [htext]
      exact scanFrom_line file (scanFrom_of_scan file h) b.toList
    _ = (scanFrom file (Position.first.down (a.toList.count '\n' + 1)) b.toList).map
          (tokens ++ ·) := by
      rw [first_down_advanceAll]
    _ = _ := by
      rw [scanFrom_relocate file (Position.down_advance _)]

theorem scanFrom_of_failure {source : String} {failure : Failure}
    (hother : ∀ e, failure ≠ .malformed e) (h : scan file source = .error failure) :
    scanFrom file .first source.toList = .error failure := by
  unfold scan at h
  split at h
  · cases h
    exact absurd rfl (hother _)
  · next hscan =>
    cases h
    exact hscan
  · cases h

theorem scanFrom_of_malformed {source : String} {e : SyntaxError}
    (h : scan file source = .error (.malformed e)) :
    ∃ e', scanFrom file .first source.toList = .error (.malformed e') ∧ e = e'.within source := by
  unfold scan at h
  split at h
  · next e' hscan =>
    cases h
    exact ⟨e', hscan, rfl⟩
  · next hother hscan =>
    cases h
    exact absurd rfl (hother _)
  · cases h

section

variable {a : String} {tokens : List Token} (h : scan file a = .ok tokens) {b : String}
include h

theorem scan_below_of_ok {more : List Token} (hmore : scan file b = .ok more) :
    scan file (a ++ "\n" ++ b) =
      .ok (tokens ++ more.map (Token.relocate (Position.down (a.toList.count '\n' + 1)))) := by
  have hbelow := scanFrom_below file h b
  rw [scanFrom_of_scan file hmore] at hbelow
  exact scan_of_scanFrom file hbelow

theorem scan_below_of_malformed {e : SyntaxError} (he : scan file b = .error (.malformed e)) :
    scan file (a ++ "\n" ++ b) = .error (.malformed
      ((e.relocate (Position.down (a.toList.count '\n' + 1))).within (a ++ "\n" ++ b))) := by
  have hbelow := scanFrom_below file h b
  obtain ⟨e', hscan, rfl⟩ := scanFrom_of_malformed file he
  rw [hscan] at hbelow
  unfold scan
  rw [hbelow]
  rfl

theorem scan_below_of_failure {failure : Failure} (hother : ∀ e, failure ≠ .malformed e)
    (hfailure : scan file b = .error failure) : scan file (a ++ "\n" ++ b) = .error failure := by
  have hbelow := scanFrom_below file h b
  rw [scanFrom_of_failure file hother hfailure] at hbelow
  unfold scan
  rw [hbelow]
  cases failure with
  | malformed e => exact absurd rfl (hother e)
  | _ => rfl

theorem exists_scan_of_below {all : List Token} (hall : scan file (a ++ "\n" ++ b) = .ok all) :
    ∃ more, scan file b = .ok more := by
  cases hb : scan file b with
  | ok more => exact ⟨more, rfl⟩
  | error failure =>
    by_cases hsyntax : ∃ e, failure = .malformed e
    · obtain ⟨e, rfl⟩ := hsyntax
      cases hall.symm.trans (scan_below_of_malformed file h hb)
    · have hother : ∀ e, failure ≠ .malformed e := fun e he => hsyntax ⟨e, he⟩
      cases hall.symm.trans (scan_below_of_failure file h hother hb)

end

/-- A text with tokens, a line feed, and a second text: a scan gives the tokens of the
first text, and then the tokens of the second one as many lines further down as the
first text has. It fails where the second text fails, for the same reason. -/
theorem scan_below {a : String} {tokens : List Token} (h : scan file a = .ok tokens) (b : String) :
    ((∃ all, scan file (a ++ "\n" ++ b) = .ok all) ↔ ∃ more, scan file b = .ok more) ∧
    (∀ more, scan file b = .ok more → scan file (a ++ "\n" ++ b) =
      .ok (tokens ++ more.map (Token.relocate (Position.down (a.toList.count '\n' + 1))))) ∧
    (∀ e, scan file b = .error (.malformed e) →
      ∃ e', scan file (a ++ "\n" ++ b) = .error (.malformed e') ∧
        e' = (e.relocate (Position.down (a.toList.count '\n' + 1))).within (a ++ "\n" ++ b) ∧
        e'.diagnostic.message = e.diagnostic.message ∧
        e'.start.line = e.start.line + (a.toList.count '\n' + 1) ∧
        e'.start.column = e.start.column) ∧
    ∀ failure, (∀ e, failure ≠ .malformed e) → scan file b = .error failure →
      scan file (a ++ "\n" ++ b) = .error failure := by
  refine ⟨⟨?_, ?_⟩, ?_, ?_, ?_⟩
  · rintro ⟨all, hall⟩
    exact exists_scan_of_below file h hall
  · rintro ⟨more, hmore⟩
    exact ⟨_, scan_below_of_ok file h hmore⟩
  · intro more hmore
    exact scan_below_of_ok file h hmore
  · intro e he
    exact ⟨_, scan_below_of_malformed file h he, rfl, rfl, rfl, rfl⟩
  · intro failure hother hfailure
    exact scan_below_of_failure file h hother hfailure

/-- Below two lines, a sign that starts no token is found two lines further down. -/
theorem scan_below_stray :
    ∃ e', scan "notes" ("likho x\r\nx = 1" ++ "\n" ++ "\"a\n\" $") = .error (.malformed e') ∧
      e'.start = ⟨4, 3⟩ := by
  have hfirst : ∃ tokens, scan "notes" "likho x\r\nx = 1" = .ok tokens := by
    have hok : (scan "notes" "likho x\r\nx = 1").isOk = true := by decide +kernel
    cases h : scan "notes" "likho x\r\nx = 1" with
    | ok tokens => exact ⟨tokens, rfl⟩
    | error failure =>
      rw [h] at hok
      cases hok
  have hsecond : ∃ e, scan "notes" "\"a\n\" $" = .error (.malformed e) ∧ e.start = ⟨2, 3⟩ := by
    refine ⟨(SyntaxError.atPosition (.strayCharacter '$') ⟨2, 3⟩).within "\"a\n\" $", ?_, rfl⟩
    decide +kernel
  obtain ⟨tokens, htokens⟩ := hfirst
  obtain ⟨e, he, hstart⟩ := hsecond
  obtain ⟨e', hscan, -, -, hline, hcolumn⟩ :=
    (scan_below "notes" htokens "\"a\n\" $").2.2.1 e he
  refine ⟨e', hscan, ?_⟩
  calc e'.start
    _ = ⟨e'.start.line, e'.start.column⟩ := rfl
    _ = ⟨4, 3⟩ := by
      rw [hline, hcolumn, hstart]
      rfl

end Source

end Crafter
