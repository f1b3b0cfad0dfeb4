import Crafter.Source.Position
import Mathlib.Data.List.Induction

/-! Places by counting: how many line feeds stand before a character, and how
many characters since the last one. -/
namespace Crafter.Position

/-- The place of a character that has the characters `before` in front of it. -/
def after (before : List Char) : Position where
  line := 1 + before.count '\n'
  column := 1 + (before.reverse.takeWhile (· ≠ '\n')).length

/-- One place comes earlier in a text than another. -/
def Before (p q : Position) : Prop :=
  p.line < q.line ∨ p.line = q.line ∧ p.column < q.column

theorem Before.trans {p q r : Position} (h : p.Before q) (h' : q.Before r) : p.Before r := by
  unfold Before at *
  omega

theorem before_irrefl (p : Position) : ¬ p.Before p := by
  unfold Before
  omega

theorem nodup_of_pairwise_before {ps : List Position} (h : ps.Pairwise Before) : ps.Nodup := by
  refine h.imp fun {p q} hlt he => ?_
  rw [he] at hlt
  exact before_irrefl q hlt

theorem before_advance (p : Position) (c : Char) : p.Before (p.advance c) := by
  unfold advance Before
  split
  · left
    change p.line < p.line + 1
    omega
  · right
    refine ⟨rfl, ?_⟩
    change p.column < p.column + 1
    omega

theorem before_advanceAll (p : Position) {cs : List Char} (h : cs ≠ []) :
    p.Before (p.advanceAll cs) := by
  induction cs generalizing p with
  | nil => exact absurd rfl h
  | cons c cs ih =>
    rw [advanceAll_cons]
    cases cs with
    | nil => exact before_advance p c
    | cons d cs => exact (before_advance p c).trans (ih (p.advance c) (List.cons_ne_nil d cs))

theorem advanceAll_first (before : List Char) : first.advanceAll before = after before := by
  -- both sides change with the last character: the column counts from the last
  -- line feed, which a list taken from the front does not show
  induction before using List.reverseRecOn with
  | nil => rfl
  | append_singleton before c ih =>
    rw [advanceAll_append, ih, advanceAll_cons, advanceAll_nil, advance]
    unfold after
    rw [List.count_append, List.reverse_append]
    by_cases hc : c = '\n'
    · subst hc
      rw [if_pos rfl]
      simp only [List.count_singleton_self, List.reverse_singleton, List.singleton_append]
      rw [List.takeWhile_cons_of_neg (by decide)]
      simp only [Position.mk.injEq, List.length_nil]
      omega
    · rw [if_neg hc]
      have hcount : List.count '\n' [c] = 0 := List.count_eq_zero.mpr (by simpa using Ne.symm hc)
      rw [hcount, List.reverse_singleton, List.singleton_append,
        List.takeWhile_cons_of_pos (by simpa using hc)]
      simp only [Position.mk.injEq, List.length_cons]
      omega

theorem after_append (before cs : List Char) :
    after (before ++ cs) = (after before).advanceAll cs := by
  calc after (before ++ cs) = first.advanceAll (before ++ cs) := (advanceAll_first _).symm
    _ = (first.advanceAll before).advanceAll cs := advanceAll_append first before cs
    _ = (after before).advanceAll cs := by rw [advanceAll_first]

theorem after_before_after (before : List Char) {cs : List Char} (h : cs ≠ []) :
    (after before).Before (after (before ++ cs)) := by
  rw [after_append]
  exact before_advanceAll _ h

/-- The place in the same column `lines` lines further down. -/
def down (lines : Nat) (p : Position) : Position := ⟨p.line + lines, p.column⟩

theorem down_advance (lines : Nat) (p : Position) (c : Char) :
    (p.advance c).down lines = (p.down lines).advance c := by
  unfold down advance
  by_cases hc : c = '\n'
  · rw [if_pos hc, if_pos hc]
    simp only [Position.mk.injEq, and_true]
    omega
  · rw [if_neg hc, if_neg hc]

theorem line_advanceAll (p : Position) (cs : List Char) :
    (p.advanceAll cs).line = p.line + cs.count '\n' := by
  induction cs generalizing p with
  | nil =>
    rw [advanceAll_nil, List.count_nil]
    omega
  | cons c cs ih =>
    rw [advanceAll_cons, ih, advance, List.count_cons]
    by_cases hc : c = '\n'
    · rw [if_pos hc, if_pos (beq_iff_eq.mpr hc)]
      dsimp only
      omega
    · rw [if_neg hc, if_neg (by simpa using hc)]
      rfl

/-- A line feed leads to the start of the next line. -/
theorem advanceAll_line (cs : List Char) (lines : Nat) :
    (first.down lines).advanceAll (cs ++ ['\n']) = first.down (lines + (cs.count '\n' + 1)) := by
  rw [advanceAll_append, advanceAll_cons, advanceAll_nil, advance, if_pos rfl, line_advanceAll]
  unfold down first
  simp only [Position.mk.injEq, and_true]
  omega

end Crafter.Position
