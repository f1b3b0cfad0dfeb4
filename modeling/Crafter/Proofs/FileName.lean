import Crafter.Proofs.Agreement
import Crafter.Proofs.Findings
import Crafter.Proofs.LineBreak

/-! The name of the file. It is noted in every token and read by nothing: the tokens
of a text, its program, the run and the warnings are the same under every name. -/
namespace Crafter

theorem Failure.relocate_id : Failure.relocate id = id := by
  funext failure
  cases failure with
  | malformed e =>
    obtain ⟨fault, start, stop, excerpt⟩ := e
    cases stop <;> rfl
  | _ => rfl

theorem Source.scan_inFile (file other source : String) :
    scan other source = (scan file source).map (List.map (Token.translate (.inFile other))) := by
  have htoken (lexeme : Lexeme) (p : Position) (cs : List Char) :
      (⟨lexeme, .ofChars file p cs⟩ : Token).translate (.inFile other) =
        ⟨lexeme, .ofChars other p cs⟩ := Token.translate_of_refl rfl _
  have hscan := scanFrom_elsewhere (f := id) (fun _ _ => rfl) htoken .first source.toList
  rw [Failure.relocate_id] at hscan
  change scanFrom other .first source.toList = _ at hscan
  unfold scan
  rw [hscan]
  cases scanFrom file .first source.toList with
  | ok tokens => rfl
  | error failure => cases failure <;> rfl

section

variable (file : String) {tokens : List Token}

theorem Program.ofBalancedTokens_inFile (tokens : List Token) :
    ofBalancedTokens (tokens.map (Token.translate (.inFile file))) =
      (ofBalancedTokens tokens).map (translate (.inFile file)) := by
  have hcarries := ofBalancedTokens_carries (.inFile file) tokens
  generalize ofBalancedTokens tokens = result at hcarries ⊢
  generalize ofBalancedTokens (tokens.map _) = result' at hcarries ⊢
  cases hcarries with
  | ok p => rfl
  | error h =>
    rw [SyntaxError.eq_of_follows_inFile h]
    rfl

theorem Lint.warnings_inFile {p : Program}
    (hoperands : ∀ s ∈ Program.statements p, s.ComparesOperands) :
    warnings (tokens.map (Token.translate (.inFile file))) (Program.translate (.inFile file) p) =
      warnings tokens p := by
  have hfindings := findings_translate (.inFile file) hoperands
    (fun _ _ (t : Token) (_ : t ∈ tokens) hstart => hstart)
  rw [warnings_eq, warnings_eq, hfindings, List.map_map]
  apply List.map_congr_left
  intro f _
  obtain ⟨flaw, subject, loc, target⟩ := f
  have hsubject : subject.rename (Translation.inFile file).names.text = subject :=
    Lexeme.rename_refl subject
  dsimp only [Function.comp, Finding.diagnostic, Finding.translate]
  rw [hsubject, Option.map_map, Option.map_map]
  rfl

/-- The report as it would be on the file of that name. -/
def Report.inFile (r : Report) : Report :=
  { r with
    tokens := r.tokens.map (Token.translate (.inFile file))
    program := r.program.map (Program.translate (.inFile file)) }

/-- The file has no part in how a request ends: only the tokens and the program of the report
tell it. -/
theorem Request.report_inFile (r : Request) :
    { r with file := file }.report = r.report.map (Report.inFile file) := by
  have hscan := Source.scan_inFile r.file file r.source
  unfold report
  dsimp only
  cases htokens : Source.scan r.file r.source with
  | error failure =>
    rw [htokens] at hscan
    rw [hscan]
    cases failure <;> rfl
  | ok tokens =>
    rw [htokens] at hscan
    rw [hscan]
    dsimp only [Except.map]
    have hparse := Program.ofBalancedTokens_inFile file tokens
    cases hprogram : Program.ofBalancedTokens tokens with
    | error e =>
      rw [hprogram] at hparse
      rw [hparse]
      rfl
    | ok p =>
      rw [hprogram] at hparse
      rw [hparse]
      dsimp only [Except.map]
      have hoperands := Program.comparesOperands_of_ofTokens
        ((Program.ofBalancedTokens_eq_ok_iff tokens p).mp hprogram)
      have hrun : Program.run? (Program.translate (.inFile file) p) r.breakpoints r.cap =
          p.run? r.breakpoints r.cap := by
        unfold Program.run?
        rw [Program.exec_inFile hoperands]
      rw [hrun]
      cases p.run? r.breakpoints r.cap with
      | error failure => rfl
      | ok outcome =>
        dsimp only
        unfold Report.ofOutcome
        rw [Lint.warnings_inFile file hoperands]
        rfl

end

end Crafter
