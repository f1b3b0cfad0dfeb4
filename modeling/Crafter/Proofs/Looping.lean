import Crafter.Proofs.Legible
import Crafter.Proofs.Rounds
import Crafter.Proofs.Warnings

/-! What it means that a loop never updates its variable. The body of such a loop
leaves the condition as it is, so that the loop is not entered, or goes on until
its body halts or the cap is reached. -/
namespace Crafter

namespace Program

/-- The loop ends in one of the four ways that leave its condition as it was. -/
def LoopEnds (test : Condition) (body : List Statement) (loc : Position) (m : Machine)
    (ending : Machine.Ending) : Prop :=
  Machine.Ends (fun m => m.environment.test test) (exec body) loc m.cap.count m ending
    (loop test body loc m)

variable {tokens : List Token} {p : Program} {test : Condition} {body : List Statement}
  {loc : Position}

/-- A body that declares neither operand leaves the condition as it is. -/
theorem existsUnique_loopEnds (h : ofTokens tokens = .ok p)
    (hs : .loop test body loc ∈ statements p)
    (hbody : ∀ name ∈ Lint.operandNames test, ¬ Declares body name) (m : Machine) :
    ∃! ending, LoopEnds test body loc m ending := by
  obtain ⟨hleft, hright⟩ := isOperand_of_loop h hs
  apply Machine.existsUnique_ending
  intro n after hround
  apply Environment.test_congr hleft hright
  intro name hname
  have hframe := exec_frame (hbody name hname) n
  rwa [hround] at hframe

/-- A loop that lint warns of declares no operand of its condition, if the right one
is a number. -/
theorem not_declares_of_updates (hupdates : Lint.updates body test.left = false) {value : Literal}
    (hright : test.right.lexeme = .number value) :
    ∀ name ∈ Lint.operandNames test, ¬ Declares body name := by
  intro name hname
  rw [Lint.operandNames_eq, hright] at hname
  rintro ⟨s, hs, hdeclares⟩
  have hassigns : Lint.assigns test.left s = true := by
    unfold Lint.assigns
    cases hlexeme : test.left.lexeme with
    | identifier other =>
      rw [hlexeme] at hname
      cases List.mem_singleton.mp hname
      rw [hdeclares]
      exact beq_self_eq_true _
    | _ =>
      rw [hlexeme] at hname
      cases hname
  rw [Lint.updates, List.any_eq_false] at hupdates
  exact hupdates s hs hassigns

/-- A loop whose body, nested blocks included, declares neither operand of its
condition ends in exactly one of four ways. So does every loop that lint warns of
as never updated and whose right operand is a number. -/
theorem loop_ends_uniquely (h : ofTokens tokens = .ok p) (hs : .loop test body loc ∈ statements p)
    (m : Machine) :
    ((∀ name ∈ Lint.operandNames test, ¬ Declares body name) →
      ∃! ending, LoopEnds test body loc m ending) ∧
    ∀ (file source : String) (shown : List Token) (d : Diagnostic) (value : Literal),
      Source.scan file source = .ok tokens → d ∈ Lint.warnings shown p →
      d.message = s!"Loop variable '{test.left.lexeme.value}' is never updated " ++
        "inside the loop (possible infinite loop)." →
      d.start = loc → test.right.lexeme = .number value →
      ∃! ending, LoopEnds test body loc m ending := by
  refine ⟨fun hbody => existsUnique_loopEnds h hs hbody m, ?_⟩
  intro file source shown d value hscan hd hmessage hstart hright
  obtain ⟨test', body', hs', hupdates, _⟩ := Lint.exists_loop_of_warning hd hmessage
  cases eq_of_loc_eq (legible_of_scan hscan h) hs' hs hstart
  exact existsUnique_loopEnds h hs (not_declares_of_updates hupdates hright) m

end Program

namespace Sample

/-- The loop of the sample is found by its place and its operands. -/
def isIdleLoop : Statement → Bool
  | .loop test body loc => loc = ⟨3, 1⟩ ∧ test.left.lexeme = .identifier "i" ∧
      test.right.lexeme = .number (.exact 2) ∧ Lint.updates body test.left = false
  | _ => false

theorem exists_idleLoop : ∃ test body, .loop test body ⟨3, 1⟩ ∈ Program.statements warnedProgram ∧
    test.left.lexeme = .identifier "i" ∧ test.right.lexeme = .number (.exact 2) ∧
    Lint.updates body test.left = false := by
  have hany : (Program.statements warnedProgram).any isIdleLoop = true := by decide +kernel
  obtain ⟨s, hs, hloop⟩ := List.any_eq_true.mp hany
  cases s with
  | loop test body loc =>
    obtain ⟨rfl, hfacts⟩ := of_decide_eq_true hloop
    exact ⟨test, body, hs, hfacts⟩
  | _ => cases hloop

/-- The warning about it. -/
def idleWarning : Diagnostic :=
  Lint.warning "Loop variable 'i' is never updated inside the loop (possible infinite loop)." ⟨3, 1⟩

theorem idleWarning_mem : idleWarning ∈ Lint.warnings warnedTokens warnedProgram := by
  decide +kernel

end Sample

theorem Program.loop_ends_uniquely_sample : ∃ test body,
    .loop test body ⟨3, 1⟩ ∈ statements Sample.warnedProgram ∧
    (∀ name ∈ Lint.operandNames test, ¬ Declares body name) ∧
    Sample.idleWarning ∈ Lint.warnings Sample.warnedTokens Sample.warnedProgram ∧
    test.right.lexeme = .number (.exact 2) ∧
    (∃! ending, LoopEnds test body ⟨3, 1⟩ (.start .empty .standard) ending) ∧
    ∃! ending, LoopEnds test body ⟨3, 1⟩ (.start (.ofList [3]) .standard) ending := by
  obtain ⟨test, body, hs, hleft, hright, hupdates⟩ := Sample.exists_idleLoop
  have hbody := not_declares_of_updates hupdates hright
  have hmessage : Sample.idleWarning.message =
      s!"Loop variable '{test.left.lexeme.value}' is never updated " ++
        "inside the loop (possible infinite loop)." := by
    rw [hleft]
    decide
  exact ⟨test, body, hs, hbody, Sample.idleWarning_mem, hright,
    (loop_ends_uniquely Sample.ofTokens_warned hs _).1 hbody,
    (loop_ends_uniquely Sample.ofTokens_warned hs _).2 _ _ _ Sample.idleWarning _
      Sample.scan_warned Sample.idleWarning_mem hmessage rfl hright⟩

end Crafter
