import Crafter.Proofs.Law
import Mathlib.Logic.ExistsUnique

/-! The rounds of a loop. What a loop does is what its rounds do in turn, and a
loop whose test comes out the same in every round ends in one of four ways. -/
namespace Crafter.Machine

/-- Full rounds of a loop: each time the test holds and the body comes to its end. -/
inductive Rounds (test : Machine → Except Fault Bool) (body : Machine → Step) :
    Nat → Machine → Machine → Prop where
  | zero (m : Machine) : Rounds test body 0 m m
  | succ {k : Nat} {m n after : Machine} (holds : test m = .ok true) (round : body m = (none, n))
      (rest : Rounds test body k n after) : Rounds test body (k + 1) m after

/-- The ways in which a loop ends that cannot change its own test: at a fault of
the first test, without a round, when a round halts, or because it is cut off. -/
inductive Ending where
  | faulty
  | skipped
  | halted
  | limited
deriving DecidableEq

/-- What a loop has done that ends in one of the ways. -/
inductive Ends (test : Machine → Except Fault Bool) (body : Machine → Step) (loc : Position)
    (cap : Nat) (m : Machine) : Ending → Step → Prop where
  | faulty {cause : Fault} (first : test m = .error cause) :
      Ends test body loc cap m .faulty (m.fault cause loc)
  | skipped (first : test m = .ok false) : Ends test body loc cap m .skipped (none, m)
  | halted {k : Nat} {n after : Machine} {halt : Halt} (few : k < cap)
      (rounds : Rounds test body k m n) (holds : test n = .ok true)
      (round : body n = (some halt, after)) : Ends test body loc cap m .halted (some halt, after)
  | limited {n : Machine} (rounds : Rounds test body cap m n) (holds : test n = .ok true) :
      Ends test body loc cap m .limited (none, n.cutOff loc)

variable {test : Machine → Except Fault Bool} {body : Machine → Step} {loc : Position}

theorem Rounds.snoc {k : Nat} {m n after : Machine} (h : Rounds test body k m n)
    (holds : test n = .ok true) (round : body n = (none, after)) :
    Rounds test body (k + 1) m after := by
  induction h with
  | zero m => exact .succ holds round (.zero after)
  | succ first firstRound _ ih => exact .succ first firstRound (ih holds round)

/-- If the test holds after some rounds, it did so before them. -/
theorem Rounds.holds {k : Nat} {m n : Machine} (h : Rounds test body k m n)
    (holds : test n = .ok true) : test m = .ok true := by
  cases h with
  | zero => exact holds
  | succ first => exact first

theorem repeatWhile_zero_of_holds {m : Machine} (holds : test m = .ok true) :
    repeatWhile test body loc 0 m = (none, m.cutOff loc) := by
  rw [repeatWhile, holds]
  rfl

theorem repeatWhile_succ_of_holds {m : Machine} (holds : test m = .ok true) (rounds : Nat) :
    repeatWhile test body loc (rounds + 1) m =
      (body m).andThen (repeatWhile test body loc rounds) := by
  rw [repeatWhile_succ, holds]
  rfl

theorem repeatWhile_of_error {m : Machine} {cause : Fault} (h : test m = .error cause)
    (rounds : Nat) : repeatWhile test body loc rounds m = m.fault cause loc := by
  cases rounds with
  | zero => rw [repeatWhile, h]; rfl
  | succ rounds => rw [repeatWhile_succ, h]; rfl

theorem repeatWhile_of_fails {m : Machine} (h : test m = .ok false) (rounds : Nat) :
    repeatWhile test body loc rounds m = (none, m) := by
  cases rounds with
  | zero => rw [repeatWhile, h]; rfl
  | succ rounds => rw [repeatWhile_succ, h]; rfl

/-- A loop that has some rounds behind it goes on with the rounds that are left. -/
theorem repeatWhile_of_rounds {k : Nat} {m n : Machine} (h : Rounds test body k m n)
    (left : Nat) :
    repeatWhile test body loc (k + left) m = repeatWhile test body loc left n := by
  induction h with
  | zero m => rw [Nat.zero_add]
  | succ holds round _ ih =>
    rw [Nat.succ_add_eq_add_succ, Nat.add_succ, repeatWhile_succ_of_holds holds, round,
      Step.andThen_none, ih]

/-- A halt in one of its rounds ends the loop. -/
theorem repeatWhile_of_halt {k rounds : Nat} {m n after : Machine} {halt : Halt}
    (h : Rounds test body k m n) (few : k < rounds) (holds : test n = .ok true)
    (round : body n = (some halt, after)) :
    repeatWhile test body loc rounds m = (some halt, after) := by
  obtain ⟨left, rfl⟩ : ∃ left, rounds = k + (left + 1) := ⟨rounds - k - 1, by omega⟩
  rw [repeatWhile_of_rounds h, repeatWhile_succ_of_holds holds, round, Step.andThen_some]

/-- A loop whose test holds and goes on holding is left by a halt or by the cap. -/
theorem ends_of_holds (steady : ∀ n after, body n = (none, after) → test after = test n)
    (cap : Nat) {m : Machine} (holds : test m = .ok true) :
    ∃ ending, Ends test body loc cap m ending (repeatWhile test body loc cap m) := by
  induction cap generalizing m with
  | zero =>
    rw [repeatWhile_zero_of_holds holds]
    exact ⟨.limited, .limited (.zero m) holds⟩
  | succ cap ih =>
    rw [repeatWhile_succ_of_holds holds]
    cases hround : body m with
    | mk halt n =>
      cases halt with
      | some halt => exact ⟨.halted, .halted (Nat.succ_pos cap) (.zero m) holds hround⟩
      | none =>
        rw [Step.andThen_none]
        have hn : test n = .ok true := (steady m n hround).trans holds
        obtain ⟨ending, hends⟩ := ih hn
        generalize repeatWhile test body loc cap n = result at hends
        cases hends with
        | faulty first => rw [hn] at first; cases first
        | skipped first => rw [hn] at first; cases first
        | halted few rounds holds' round =>
          exact ⟨.halted, .halted (Nat.succ_lt_succ few) (.succ holds hround rounds) holds' round⟩
        | limited rounds holds' => exact ⟨.limited, .limited (.succ holds hround rounds) holds'⟩

/-- The first test and whether the loop halted tell in which way it ended. -/
theorem Ends.ending_eq {cap : Nat} {m : Machine} {ending : Ending} {result : Step}
    (h : Ends test body loc cap m ending result) : ending =
      match test m, result.1 with
      | .error _, _ => .faulty
      | .ok false, _ => .skipped
      | .ok true, some _ => .halted
      | .ok true, none => .limited := by
  cases h with
  | faulty first => rw [first]
  | skipped first => rw [first]
  | halted few rounds holds round => rw [rounds.holds holds]
  | limited rounds holds => rw [rounds.holds holds]

/-- A loop whose rounds leave its test as it is ends in exactly one of the ways. -/
theorem existsUnique_ending (steady : ∀ n after, body n = (none, after) → test after = test n)
    (cap : Nat) (m : Machine) :
    ∃! ending, Ends test body loc cap m ending (repeatWhile test body loc cap m) := by
  refine existsUnique_of_exists_of_unique ?_ fun a b ha hb => ha.ending_eq.trans hb.ending_eq.symm
  cases htest : test m with
  | error cause =>
    rw [repeatWhile_of_error htest]
    exact ⟨.faulty, .faulty htest⟩
  | ok holds =>
    cases holds with
    | false =>
      rw [repeatWhile_of_fails htest]
      exact ⟨.skipped, .skipped htest⟩
    | true => exact ends_of_holds steady cap htest

end Crafter.Machine

namespace Crafter.Program

/-- What a loop does within its frame. -/
def loop (test : Condition) (body : List Statement) (loc : Position) (m : Machine) : Step :=
  Machine.repeatWhile (fun m => m.environment.test test) (exec body) loc m.cap.count m

theorem exec_loop (test : Condition) (body : List Statement) (loc : Position) (m : Machine) :
    (Statement.loop test body loc).exec m = m.within ⟨.loop, loc⟩ (loop test body loc) := by
  rw [Statement.exec]
  rfl

end Crafter.Program
