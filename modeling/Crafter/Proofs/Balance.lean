import Crafter.Proofs.Refusal
import Crafter.Proofs.Taking

/-! The check of the braces and the parser both keep the opening braces that are
still open, and one token changes them alike. -/
namespace Crafter

open Grammar

namespace Source

theorem balanceStep_of_opening {t : Token} (h : t.lexeme = .brace .opening) (opened : List Token) :
    balanceStep opened t = .ok (t :: opened) := by
  unfold balanceStep
  rw [h]

theorem balanceStep_of_closing {t : Token} (h : t.lexeme = .brace .closing) (opener : Token)
    (opened : List Token) : balanceStep (opener :: opened) t = .ok opened := by
  unfold balanceStep
  rw [h]

theorem balanceStep_of_stray {t : Token} (h : t.lexeme = .brace .closing) :
    balanceStep [] t = .error (.atToken .strayClosing t) := by
  unfold balanceStep
  rw [h]

theorem balanceStep_of_other {t : Token} (h : ∀ side, t.lexeme ≠ .brace side)
    (opened : List Token) : balanceStep opened t = .ok opened := by
  unfold balanceStep
  split
  · next ht => exact absurd ht (h .opening)
  · next ht => exact absurd ht (h .closing)
  · rfl

theorem not_brace_of_isOperand {t : Token} (h : IsOperand t) (side : Brace) :
    t.lexeme ≠ .brace side := by
  rcases h with ⟨name, ht⟩ | ⟨value, ht⟩ <;> rw [ht] <;> exact nofun

theorem not_brace_of_isPart {t : Token} (h : IsPart t) (side : Brace) :
    t.lexeme ≠ .brace side := by
  rcases h with h | ⟨spelling, ht⟩
  · exact not_brace_of_isOperand h side
  · rw [ht]
    exact nofun

end Source

open Source

namespace Reading

/-- The opening braces of the blocks that are open, the innermost first. -/
def openers (r : Reading) : List Token := r.blocks.map (·.opener)

theorem openers_close (r : Reading) (block : OpenBlock) (outer : List OpenBlock) :
    (r.close block outer).openers = outer.map (·.opener) := by
  obtain ⟨owner, opener, before⟩ := block
  cases owner <;> rfl

/-- Only the two braces change the open blocks. -/
theorem balanceStep_of_takes {r q : Reading} {t : Token} (h : r.Takes t q) :
    balanceStep r.openers t = .ok q.openers := by
  cases h with
  | declare _ ht | print _ ht | branch _ ht | loop _ ht | name _ ht | equals _ ht | text _ ht
  | operator _ _ ht | otherwise _ ht =>
    apply balanceStep_of_other
    intro side
    rw [ht]
    exact nofun
  | firstPart _ ht | part _ ht => exact balanceStep_of_other (not_brace_of_isPart ht) _
  | left _ ht | right _ ht => exact balanceStep_of_other (not_brace_of_isOperand ht) _
  | @closer block outer _ hblocks ht =>
    rw [openers_close, openers, hblocks, List.map_cons]
    exact balanceStep_of_closing ht block.opener _
  | opener _ ht => exact balanceStep_of_opening ht _

/-- One token changes the open blocks of the parser and the open braces of the
check alike. -/
theorem balanceStep_of_step {r r' : Reading} {t : Token} (h : r.step t = .ok r') :
    balanceStep r.openers t = .ok r'.openers := by
  obtain ⟨q, q', hq, htakes, rfl⟩ := step_cases h
  have hopeners : q.openers = r.openers := by
    rcases hq with rfl | hsettle
    · rfl
    · exact congrArg (List.map _) (blocks_of_settle hsettle)
  rw [← hopeners]
  change balanceStep q.openers t = .ok q'.openers
  exact balanceStep_of_takes htakes

theorem balance_of_run {r q : Reading} {ts : List Token} (h : r.run ts = .ok q) :
    ts.foldlM balanceStep r.openers = .ok q.openers := by
  induction ts generalizing r with
  | nil =>
    cases h
    rfl
  | cons t ts ih =>
    obtain ⟨r', hstep, hrun⟩ := run_cons_eq_ok h
    rw [List.foldlM_cons, balanceStep_of_step hstep]
    exact ih hrun

/-- What the parser has read so far leaves the check with the braces of the
parser's open blocks, also where a later token makes the parser fail. -/
theorem checkBalance_of_run {us : List Token} {q : Reading} (h : start.run us = .ok q)
    (vs : List Token) : (us ++ vs).foldlM balanceStep [] = vs.foldlM balanceStep q.openers := by
  have hus := balance_of_run h
  rw [List.foldlM_append]
  change (us.foldlM balanceStep start.openers >>= _) = _
  rw [hus]
  rfl

end Reading

end Crafter
