import Crafter.Proofs.Equivariance
import Crafter.Proofs.Warnings
import Mathlib.Data.List.Find

/-! What lint finds, before it is put into words: a flaw, the token at fault, and
where it shows. Findings about a translated program are the translations of those
about the program itself, in the same order. -/
namespace Crafter

namespace Lint

/-- What lint finds fault with. -/
inductive Flaw where
  | unchanged
  | unused
  | undeclared
deriving DecidableEq, Repr

/-- The message about a flaw of a variable. -/
def Flaw.message (subject : String) : Flaw → String
  | .unchanged => s!"Loop variable '{subject}' is never updated " ++
      "inside the loop (possible infinite loop)."
  | .unused => s!"Variable '{subject}' is declared but never used."
  | .undeclared => s!"Variable '{subject}' is used before declaration."

/-- A flaw with what it is a flaw of, the place of the statement, and the token
where the warning ends, if there is one. -/
structure Finding where
  flaw : Flaw
  subject : Lexeme
  loc : Position
  target : Option Token
deriving DecidableEq, Repr

/-- The warning about a finding. -/
def Finding.diagnostic (f : Finding) : Diagnostic :=
  { warning (f.flaw.message f.subject.value) f.loc with
    endLine := f.target.map (·.span.stop.line)
    endColumn := f.target.map (·.span.stop.column) }

def loopFinding? : Statement → Option Finding
  | .loop test body loc =>
    if updates body test.left then none else some ⟨.unchanged, test.left.lexeme, loc, none⟩
  | _ => none

/-- The occurrences of names that are not among the others. -/
def missing (others : List (String × Position)) (names : List (String × Position)) :
    List (String × Position) :=
  names.filter fun (name, _) => !others.any (·.1 == name)

/-- All that lint finds in a program, in the order of the warnings. -/
def findings (tokens : List Token) (p : Program) : List Finding :=
  (Program.statements p).filterMap loopFinding? ++
    (missing (uses p) (declarations p)).map (fun (name, loc) =>
      ⟨.unused, .identifier name, loc, nameTokenAt? tokens loc⟩) ++
    (missing (declarations p) (uses p)).map (fun (name, loc) =>
      ⟨.undeclared, .identifier name, loc, none⟩)

theorem loopWarnings_eq (p : Program) : loopWarnings p =
    ((Program.statements p).filterMap loopFinding?).map Finding.diagnostic := by
  rw [List.map_filterMap]
  apply List.filterMap_congr
  intro s _
  cases s with
  | loop test body loc =>
    dsimp only [loopFinding?]
    split <;> rfl
  | _ => rfl

theorem warnings_eq (tokens : List Token) (p : Program) :
    warnings tokens p = (findings tokens p).map Finding.diagnostic := by
  have hunused : unusedWarnings tokens p = ((missing (uses p) (declarations p)).map
      (fun (name, loc) =>
        (⟨.unused, .identifier name, loc, nameTokenAt? tokens loc⟩ : Finding))).map
        Finding.diagnostic := by
    rw [List.map_map]
    apply List.map_congr_left
    rintro ⟨name, loc⟩ _
    dsimp only [Function.comp, Finding.diagnostic]
    rw [Option.map_map, Option.map_map]
    rfl
  have hundeclared : undeclaredWarnings p = ((missing (declarations p) (uses p)).map
      (fun (name, loc) => (⟨.undeclared, .identifier name, loc, none⟩ : Finding))).map
        Finding.diagnostic := by
    rw [List.map_map]
    rfl
  rw [warnings, findings, List.map_append, List.map_append, loopWarnings_eq, hunused, hundeclared]

/-- A finding is about a loop, a declaration or a use. -/
theorem findings_cases {tokens : List Token} {p : Program} {f : Finding}
    (h : f ∈ findings tokens p) :
    (∃ test body loc, .loop test body loc ∈ Program.statements p ∧
      f = ⟨.unchanged, test.left.lexeme, loc, none⟩) ∨
    (∃ name value loc, .declaration name value loc ∈ Program.statements p ∧
      f = ⟨.unused, .identifier name, loc, nameTokenAt? tokens loc⟩) ∨
    ∃ name, ∃ s ∈ Program.statements p, name ∈ usedNames s ∧
      f = ⟨.undeclared, .identifier name, s.loc, none⟩ := by
  unfold findings at h
  rw [List.append_assoc] at h
  rcases List.mem_append.mp h with h | h
  · left
    obtain ⟨s, hs, hsome⟩ := List.mem_filterMap.mp h
    cases s with
    | loop test body loc =>
      dsimp only [loopFinding?] at hsome
      split at hsome
      · cases hsome
      · cases hsome
        exact ⟨test, body, loc, hs, rfl⟩
    | _ => cases hsome
  · right
    rcases List.mem_append.mp h with h | h
    · obtain ⟨⟨name, loc⟩, hmem, rfl⟩ := List.mem_map.mp h
      obtain ⟨value, hs⟩ := exists_of_mem_declarations (List.mem_of_mem_filter hmem)
      exact Or.inl ⟨name, value, loc, hs, rfl⟩
    · obtain ⟨⟨name, loc⟩, hmem, rfl⟩ := List.mem_map.mp h
      obtain ⟨s, hs, hused, rfl⟩ := exists_of_mem_uses (List.mem_of_mem_filter hmem)
      exact Or.inr ⟨name, s, hs, hused, rfl⟩

def Finding.translate (τ : Translation) (f : Finding) : Finding where
  flaw := f.flaw
  subject := f.subject.rename τ.names.text
  loc := τ.start f.loc
  target := f.target.map (Token.translate τ)

end Lint

section

variable (τ : Translation)

mutual

theorem Statement.withNested_translate : ∀ s : Statement,
    (s.translate τ).withNested = s.withNested.map (Statement.translate τ)
  | .declaration .. | .printText .. | .printValue .. | .absent _ => by
    simp [Statement.translate, Statement.withNested]
  | .conditional test body alternative loc => by
    rw [Statement.translate, Statement.withNested, Statement.withNested,
      Program.statements_translate body, Program.statements_translate alternative, List.map_cons,
      List.map_append, Statement.translate]
  | .loop test body loc => by
    rw [Statement.translate, Statement.withNested, Statement.withNested,
      Program.statements_translate body, List.map_cons, Statement.translate]
  | .foreign name body loc => by
    rw [Statement.translate, Statement.withNested, Statement.withNested,
      Program.statements_translate body, List.map_cons, Statement.translate]
    split <;> rfl

theorem Program.statements_translate : ∀ p : List Statement,
    Program.statements (Program.translate τ p) =
      (Program.statements p).map (Statement.translate τ)
  | [] => by
    rw [Program.translate, Program.statements, List.map_nil]
  | s :: rest => by
    rw [Program.translate, Program.statements, Program.statements,
      Statement.withNested_translate s, Program.statements_translate rest, List.map_append]

end

namespace Lint

open Grammar

theorem declaredName?_translate (s : Statement) :
    declaredName? (s.translate τ) = (declaredName? s).map τ.names.text := by
  cases s <;> rw [Statement.translate] <;> rfl

theorem operandNames_translate (c : Condition) :
    operandNames (c.translate τ) = (operandNames c).map τ.names.text := by
  obtain ⟨⟨left, _⟩, _, ⟨right, _⟩⟩ := c
  cases left <;> cases right <;> rfl

theorem usedNames_translate (s : Statement) :
    usedNames (s.translate τ) = (usedNames s).map τ.names.text := by
  cases s with
  | declaration name value loc | printValue value loc =>
    rw [Statement.translate]
    exact τ.names.namesIn_text value
  | conditional test body alternative loc | loop test body loc =>
    rw [Statement.translate]
    exact operandNames_translate τ test
  | printText | foreign | absent => rw [Statement.translate]; rfl

/-- A name with its place, translated. -/
def occurrence (o : String × Position) : String × Position := (τ.names.text o.1, τ.start o.2)

theorem any_name_translate (os : List (String × Position)) (name : String) :
    (os.map (occurrence τ)).any (·.1 == τ.names.text name) = os.any (·.1 == name) := by
  rw [List.any_map]
  congr 1
  funext o
  exact Bool.eq_iff_iff.mpr (by simp [occurrence, τ.names.text_injective.eq_iff])

theorem firstOccurrences_translate (os : List (String × Position)) :
    firstOccurrences (os.map (occurrence τ)) = (firstOccurrences os).map (occurrence τ) := by
  unfold firstOccurrences
  rw [List.foldl_map]
  refine @List.foldl_hom _ _ _ (List.map (occurrence τ)) _ _ os [] fun seen o => ?_
  have hseen := any_name_translate τ seen o.1
  dsimp only [occurrence] at hseen ⊢
  rw [hseen]
  split
  · rfl
  · rw [List.map_append]
    rfl

theorem declarations_translate (p : Program) :
    declarations (Program.translate τ p) = (declarations p).map (occurrence τ) := by
  unfold declarations
  rw [Program.statements_translate, List.filterMap_map, ← firstOccurrences_translate,
    List.map_filterMap]
  congr 1
  apply List.filterMap_congr
  intro s _
  cases s with
  | declaration name value loc =>
    dsimp only [Function.comp]
    rw [Statement.translate]
    rfl
  | _ =>
    dsimp only [Function.comp]
    rw [Statement.translate]
    rfl

theorem uses_translate (p : Program) :
    uses (Program.translate τ p) = (uses p).map (occurrence τ) := by
  have hloc {s : Statement} (h : usedNames s ≠ []) : (s.translate τ).loc = τ.start s.loc := by
    cases s with
    | absent => exact absurd rfl h
    | _ => rw [Statement.translate]; rfl
  unfold uses
  rw [Program.statements_translate, List.flatMap_map, ← firstOccurrences_translate,
    List.map_flatMap]
  congr 1
  apply List.flatMap_congr
  intro s _
  by_cases hnil : usedNames s = []
  · rw [usedNames_translate, hnil]
    rfl
  · rw [usedNames_translate, hloc hnil, List.map_map, List.map_map]
    rfl

theorem missing_translate (others names : List (String × Position)) :
    missing (others.map (occurrence τ)) (names.map (occurrence τ)) =
      (missing others names).map (occurrence τ) := by
  unfold missing
  rw [List.filter_map]
  congr 2
  funext o
  exact congrArg Bool.not (any_name_translate τ others o.1)

theorem assigns_translate {operand : Token} (h : IsOperand operand) (s : Statement) :
    assigns (operand.translate τ) (s.translate τ) = assigns operand s := by
  obtain ⟨lexeme, span⟩ := operand
  rcases h with ⟨name, hlexeme⟩ | ⟨value, hlexeme⟩
  · cases hlexeme
    change (declaredName? (s.translate τ) == some (τ.names.text name)) =
      (declaredName? s == some name)
    rw [declaredName?_translate]
    cases declaredName? s with
    | none => rfl
    | some other =>
      exact Bool.eq_iff_iff.mpr (by simp [τ.names.text_injective.eq_iff])
  · cases hlexeme
    rfl

theorem updates_translate {operand : Token} (h : IsOperand operand) (body : List Statement) :
    updates (Program.translate τ body) (operand.translate τ) = updates body operand := by
  unfold updates
  rw [Program.statements_translate, List.any_map]
  congr 1
  funext s
  exact assigns_translate τ h s

theorem loopFinding?_translate {s : Statement} (h : s.ComparesOperands) :
    loopFinding? (s.translate τ) = (loopFinding? s).map (Finding.translate τ) := by
  cases s with
  | loop test body loc =>
    rw [Statement.translate]
    dsimp only [loopFinding?]
    rw [show (test.translate τ).left = test.left.translate τ from rfl, updates_translate τ h.1]
    split <;> rfl
  | _ => rw [Statement.translate]; rfl

/-- The name after a keyword is found again if no other token starts where the
keyword does now. -/
theorem nameTokenAt?_translate {tokens : List Token} {loc : Position}
    (h : ∀ t ∈ tokens, τ.start t.span.start = τ.start loc → t.span.start = loc) :
    nameTokenAt? (tokens.map (Token.translate τ)) (τ.start loc) =
      (nameTokenAt? tokens loc).map (Token.translate τ) := by
  have hpairs : (tokens.map (Token.translate τ)).zip (tokens.map (Token.translate τ)).tail =
      (tokens.zip tokens.tail).map (Prod.map (Token.translate τ) (Token.translate τ)) := by
    rw [← List.map_tail, List.zip_map]
  unfold nameTokenAt?
  rw [hpairs, List.findRev?_eq_find?_reverse, List.findRev?_eq_find?_reverse, ← List.map_reverse,
    List.find?_map, Option.map_map, Option.map_map]
  refine congrArg (Option.map _) (List.find?_congr ?_)
  rintro ⟨keyword, name⟩ hmem
  have hkeyword := h keyword (List.of_mem_zip (List.mem_reverse.mp hmem)).1
  obtain ⟨lexeme, span⟩ := keyword
  obtain ⟨lexeme', span'⟩ := name
  cases lexeme with
  | keyword word =>
    cases lexeme' with
    | identifier name =>
      have hiff : τ.start span.start = τ.start loc ↔ span.start = loc :=
        ⟨hkeyword, congrArg τ.start⟩
      exact decide_eq_decide.mpr hiff
    | _ => rfl
  | _ => rfl

/-- Lint finds in a translated program what it finds in the program. -/
theorem findings_translate {tokens : List Token} {p : Program}
    (hoperands : ∀ s ∈ Program.statements p, s.ComparesOperands)
    (hplaces : ∀ s ∈ Program.statements p, ∀ t ∈ tokens,
      τ.start t.span.start = τ.start s.loc → t.span.start = s.loc) :
    findings (tokens.map (Token.translate τ)) (Program.translate τ p) =
      (findings tokens p).map (Finding.translate τ) := by
  have hunused : ∀ o ∈ missing (uses p) (declarations p),
      nameTokenAt? (tokens.map (Token.translate τ)) (τ.start o.2) =
        (nameTokenAt? tokens o.2).map (Token.translate τ) := by
    rintro ⟨name, loc⟩ ho
    obtain ⟨value, hs⟩ := exists_of_mem_declarations (List.mem_of_mem_filter ho)
    exact nameTokenAt?_translate τ (hplaces _ hs)
  unfold findings
  rw [Program.statements_translate, uses_translate, declarations_translate, missing_translate,
    missing_translate, List.map_append, List.map_append]
  congr 1
  · congr 1
    · rw [List.filterMap_map, List.map_filterMap]
      exact List.filterMap_congr fun s hs => loopFinding?_translate τ (hoperands s hs)
    · rw [List.map_map, List.map_map]
      apply List.map_congr_left
      intro o ho
      dsimp only [Function.comp, occurrence, Finding.translate]
      rw [hunused o ho]
      rfl
  · rw [List.map_map, List.map_map]
    rfl

end Lint

end

end Crafter
