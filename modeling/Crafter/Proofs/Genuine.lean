import Crafter.Proofs.Law
import Crafter.Proofs.Parsing
import Crafter.Run.Outcome

/-! Trees that come from program texts. They hold only statements that can be
executed, so their runs end with an outcome. -/
namespace Crafter

open Grammar

mutual

theorem genuine_phrase : ∀ phrase : Phrase, phrase.tree.Genuine
  | .declaration .. | .printText .. | .printValue .. => trivial
  | .conditional _ _ body => ⟨genuine_block body, trivial⟩
  | .alternative _ _ body _ other => ⟨genuine_block body, genuine_block other⟩
  | .loop _ _ body => genuine_block body

theorem genuine_block : ∀ block : Block Phrase, Program.Genuine block.tree
  | ⟨_, body, _⟩ => genuine_derivation body

theorem genuine_derivation : ∀ d : List Phrase, Program.Genuine (Derivation.tree d)
  | [] => trivial
  | phrase :: d => ⟨genuine_phrase phrase, genuine_derivation d⟩

end

namespace Program

/-- The parser makes only trees that can be executed. -/
theorem genuine_of_ofTokens {tokens : List Token} {p : Program} (h : ofTokens tokens = .ok p) :
    Genuine p := by
  obtain ⟨d, _, rfl⟩ := exists_derivation_of_ofTokens h
  exact genuine_derivation d

end Program

/-- The step does not end at a form of statement that cannot be executed. -/
def Step.Supported (step : Step) : Prop := ∀ name, step.1 ≠ some (.unsupported name)

theorem supported_law : Step.Law fun _ step => step.Supported where
  idle _ := nofun
  bind _ _ _ := nofun
  print _ _ := nofun
  cutOff _ _ := nofun
  fault _ _ _ := nofun
  pause _ _ _ := nofun
  within _ _ _ _ h := h
  andThen _ _ _ _ h := h

theorem Program.exec_supported (p : List Statement) (h : Program.Genuine p) (m : Machine) :
    (Program.exec p m).Supported :=
  supported_law.of_program p (Or.inl h) m

namespace Program

theorem run?_of_small {cap : Int} (hcap : ¬ 1 ≤ cap) (p : Program) (breakpoints : Breakpoints) :
    p.run? breakpoints cap = .error (.capTooSmall cap) := by
  have hnone : ¬ 0 < cap.toNat := by omega
  have hstart : Machine.start? breakpoints cap = .error (.capTooSmall cap) := by
    unfold Machine.start? Cap.ofInt?
    rw [dif_neg hnone]
  unfold run?
  rw [hstart]
  rfl

/-- A run of a program text's tree ends with an outcome, unless the cap is too
small. -/
theorem run?_eq_ok {p : Program} (h : Genuine p) (breakpoints : Breakpoints) {cap : Int}
    (hcap : 1 ≤ cap) : ∃ c : Cap, (c.count : Int) = cap ∧
      p.run? breakpoints cap = .ok (p.run breakpoints c) := by
  have hpositive : 0 < cap.toNat := by omega
  have hstart : Machine.start? breakpoints cap = .ok (.start breakpoints ⟨cap.toNat, hpositive⟩) := by
    unfold Machine.start? Cap.ofInt?
    rw [dif_pos hpositive]
  refine ⟨⟨cap.toNat, hpositive⟩, Int.toNat_of_nonneg (by omega), ?_⟩
  have hsupported := exec_supported p h (.start breakpoints ⟨cap.toNat, hpositive⟩)
  unfold run? run
  rw [hstart]
  dsimp only [bind, Except.bind]
  cases hrun : exec p (.start breakpoints ⟨cap.toNat, hpositive⟩) with
  | mk halt m =>
    rw [hrun] at hsupported
    cases halt with
    | none => rfl
    | some halt =>
      cases halt with
      | unsupported name => exact absurd rfl (hsupported name)
      | fault | pause => rfl

theorem run?_count {p : Program} (h : Genuine p) (breakpoints : Breakpoints) (cap : Cap) :
    p.run? breakpoints cap.count = .ok (p.run breakpoints cap) := by
  have hpositive := cap.positive
  have hcap : 1 ≤ (cap.count : Int) := by omega
  obtain ⟨c, hc, hrun⟩ := run?_eq_ok h breakpoints hcap
  obtain ⟨count, _⟩ := c
  obtain ⟨count', _⟩ := cap
  cases Int.ofNat.inj hc
  exact hrun

end Program

end Crafter
