import Crafter.Proofs.Reaching

/-! One execution of a loop, told by the contexts that its rounds lead to. The loop
goes through its rounds up to the first context in which its condition does not hold
or its body halts, and is cut off only if there is none before the cap is reached and
the condition still holds then. -/
namespace Crafter

namespace Machine

variable {test : Machine → Except Fault Bool} {body : Machine → Step} {loc : Position}

/-- A loop that counts how often its body has come to its end. -/
def repeatCounting (test : Machine → Except Fault Bool) (body : Machine → Step)
    (loc : Position) : Nat → Machine → Nat × Step
  | 0, m => (0, m.evaluate (test m) loc fun holds => (none, if holds then m.cutOff loc else m))
  | rounds + 1, m =>
    match test m with
    | .error cause => (0, m.fault cause loc)
    | .ok false => (0, (none, m))
    | .ok true =>
      match body m with
      | (some halt, after) => (0, (some halt, after))
      | (none, after) =>
        let (completed, step) := repeatCounting test body loc rounds after
        (completed + 1, step)

theorem repeatCounting_of_round {m after : Machine} (holds : test m = .ok true)
    (round : body m = (none, after)) (rounds : Nat) :
    repeatCounting test body loc (rounds + 1) m =
      ((repeatCounting test body loc rounds after).1 + 1,
        (repeatCounting test body loc rounds after).2) := by
  rw [repeatCounting, holds]
  dsimp only
  rw [round]

theorem repeatCounting_of_halt {m after : Machine} {halt : Halt} (holds : test m = .ok true)
    (round : body m = (some halt, after)) (rounds : Nat) :
    repeatCounting test body loc (rounds + 1) m = (0, (some halt, after)) := by
  rw [repeatCounting, holds]
  dsimp only
  rw [round]

theorem repeatCounting_of_fails {m : Machine} (h : test m = .ok false) (rounds : Nat) :
    repeatCounting test body loc rounds m = (0, (none, m)) := by
  cases rounds with
  | zero => rw [repeatCounting, h]; rfl
  | succ rounds => rw [repeatCounting, h]

theorem repeatCounting_of_error {m : Machine} {cause : Fault} (h : test m = .error cause)
    (rounds : Nat) : repeatCounting test body loc rounds m = (0, m.fault cause loc) := by
  cases rounds with
  | zero => rw [repeatCounting, h]; rfl
  | succ rounds => rw [repeatCounting, h]

/-- Counting does not change what the loop does. -/
theorem repeatCounting_snd (rounds : Nat) (m : Machine) :
    (repeatCounting test body loc rounds m).2 = repeatWhile test body loc rounds m := by
  induction rounds generalizing m with
  | zero =>
    rw [repeatCounting, repeatWhile]
  | succ rounds ih =>
    cases htest : test m with
    | error cause => rw [repeatCounting_of_error htest, repeatWhile_of_error htest]
    | ok holds =>
      cases holds with
      | false => rw [repeatCounting_of_fails htest, repeatWhile_of_fails htest]
      | true =>
        rw [repeatWhile_succ_of_holds htest]
        rcases hround : body m with ⟨_ | halt, after⟩
        · rw [repeatCounting_of_round htest hround, Step.andThen_none]
          exact ih after
        · rw [repeatCounting_of_halt htest hround, Step.andThen_some]

/-- Full rounds are counted. -/
theorem repeatCounting_of_rounds {k : Nat} {m n : Machine} (h : Rounds test body k m n)
    (left : Nat) : (repeatCounting test body loc (k + left) m).1 =
      k + (repeatCounting test body loc left n).1 := by
  induction h with
  | zero m => rw [Nat.zero_add, Nat.zero_add]
  | @succ k _ _ _ holds round _ ih =>
    rw [Nat.add_right_comm, repeatCounting_of_round holds round]
    dsimp only
    omega

end Machine

namespace Program

/-- The context after the body was run so often, as long as it has not halted. -/
def context (body : List Statement) (m : Machine) : Nat → Option Machine
  | 0 => some m
  | i + 1 => (context body m i).bind fun n =>
    match exec body n with
    | (none, after) => some after
    | (some _, _) => none

/-- No full round of the loop begins with the machine: its condition is false or at
fault, or it holds and the body halts. -/
inductive Stops (test : Condition) (body : List Statement) (n : Machine) : Prop
  | fails (no : n.environment.test test = .ok false)
  | faults (cause : Fault) (fault : n.environment.test test = .error cause)
  | halts (halt : Halt) (after : Machine) (holds : n.environment.test test = .ok true)
      (round : exec body n = (some halt, after))

def StopsAt (test : Condition) (body : List Statement) (m : Machine) (i : Nat) : Prop :=
  ∃ n, context body m i = some n ∧ Stops test body n

/-- The first context, before the cap is reached, in which the loop stops; if there is
none, the cap itself. -/
structure FirstStop (test : Condition) (body : List Statement) (m : Machine) (cap k : Nat) :
    Prop where
  within : k ≤ cap
  before : ∀ i < k, ¬ StopsAt test body m i
  stops : k < cap → StopsAt test body m k

/-- How a loop ends that has gone through `k` of its rounds and has come to `n`. -/
inductive Concludes (test : Condition) (body : List Statement) (loc : Position) (cap k : Nat)
    (n : Machine) : Step → Prop
  | fails (no : n.environment.test test = .ok false) : Concludes test body loc cap k n (none, n)
  | faults {cause : Fault} (fault : n.environment.test test = .error cause) :
      Concludes test body loc cap k n (n.fault cause loc)
  | halts {halt : Halt} {after : Machine} (few : k < cap)
      (holds : n.environment.test test = .ok true) (round : exec body n = (some halt, after)) :
      Concludes test body loc cap k n (some halt, after)
  | cutOff (all : k = cap) (holds : n.environment.test test = .ok true) :
      Concludes test body loc cap k n (none, n.cutOff loc)

variable {test : Condition} {body : List Statement} {m n : Machine}

/-- The condition holds and the body comes to its end where the loop does not stop. -/
theorem exists_round_of_not_stops (h : ¬ Stops test body n) :
    n.environment.test test = .ok true ∧ ∃ after, exec body n = (none, after) := by
  cases htest : n.environment.test test with
  | error cause => exact absurd (.faults cause htest) h
  | ok holds =>
    cases holds with
    | false => exact absurd (.fails htest) h
    | true =>
      refine ⟨rfl, ?_⟩
      rcases hround : exec body n with ⟨_ | halt, after⟩
      · exact ⟨after, rfl⟩
      · exact absurd (.halts halt after htest hround) h

theorem context_succ {i : Nat} {after : Machine} (h : context body m i = some n)
    (round : exec body n = (none, after)) : context body m (i + 1) = some after := by
  rw [context, h, Option.bind_some, round]

/-- The loop goes through all rounds before it stops. -/
theorem exists_rounds {k : Nat} (h : ∀ i < k, ¬ StopsAt test body m i) :
    ∃ n, context body m k = some n ∧
      Machine.Rounds (fun m => m.environment.test test) (exec body) k m n := by
  induction k with
  | zero => exact ⟨m, rfl, .zero m⟩
  | succ k ih =>
    obtain ⟨n, hcontext, hrounds⟩ := ih fun i hi => h i (Nat.lt_succ_of_lt hi)
    have hstops : ¬ Stops test body n := fun hstops => h k k.lt_succ_self ⟨n, hcontext, hstops⟩
    obtain ⟨holds, after, round⟩ := exists_round_of_not_stops hstops
    exact ⟨after, context_succ hcontext round, hrounds.snoc holds round⟩

theorem exists_firstStop (test : Condition) (body : List Statement) (m : Machine) (cap : Nat) :
    ∃ k, FirstStop test body m cap k := by
  induction cap with
  | zero => exact ⟨0, Nat.le_refl 0, nofun, nofun⟩
  | succ cap ih =>
    obtain ⟨k, hwithin, hbefore, hstops⟩ := ih
    by_cases hk : StopsAt test body m k
    · exact ⟨k, by omega, hbefore, fun _ => hk⟩
    · -- nothing stopped the loop so far, so that the old cap was reached
      have hfew : ¬ k < cap := fun hlt => hk (hstops hlt)
      have hcap : k = cap := by omega
      refine ⟨cap + 1, Nat.le_refl _, ?_, by omega⟩
      intro i hi
      rcases Nat.lt_succ_iff_lt_or_eq.mp hi with hi | rfl
      · exact hbefore i (by omega)
      · rwa [← hcap]

theorem FirstStop.unique {cap k k' : Nat} (h : FirstStop test body m cap k)
    (h' : FirstStop test body m cap k') : k = k' := by
  have hge : ¬ k < k' := fun hlt => h'.before k hlt (h.stops (Nat.lt_of_lt_of_le hlt h'.within))
  have hle : ¬ k' < k := fun hlt => h.before k' hlt (h'.stops (Nat.lt_of_lt_of_le hlt h.within))
  omega

theorem existsUnique_firstStop (test : Condition) (body : List Statement) (m : Machine)
    (cap : Nat) : ∃! k, FirstStop test body m cap k := by
  obtain ⟨k, hk⟩ := exists_firstStop test body m cap
  exact ⟨k, hk, fun _ h => h.unique hk⟩

/-- What the loop does with the rounds that are left is decided where it has come to. -/
theorem concludes_of_rounds {k left : Nat} (loc : Position)
    (hstops : 0 < left → Stops test body n) :
    (Machine.repeatCounting (fun m => m.environment.test test) (exec body) loc left n).1 = 0 ∧
      Concludes test body loc (k + left) k n
        (Machine.repeatWhile (fun m => m.environment.test test) (exec body) loc left n) := by
  cases htest : n.environment.test test with
  | error cause =>
    rw [Machine.repeatCounting_of_error htest, Machine.repeatWhile_of_error htest]
    exact ⟨rfl, .faults htest⟩
  | ok holds =>
    cases holds with
    | false =>
      rw [Machine.repeatCounting_of_fails htest, Machine.repeatWhile_of_fails htest]
      exact ⟨rfl, .fails htest⟩
    | true =>
      cases left with
      | zero =>
        rw [Machine.repeatWhile_zero_of_holds htest]
        exact ⟨rfl, .cutOff rfl htest⟩
      | succ left =>
        -- a loop that stops with rounds left, its condition true, has a body that halts
        cases hstops (Nat.succ_pos left) with
        | fails no => rw [htest] at no; cases no
        | faults cause fault => rw [htest] at fault; cases fault
        | halts halt after holds round =>
          rw [Machine.repeatCounting_of_halt holds round,
            Machine.repeatWhile_succ_of_holds holds, round, Step.andThen_some]
          exact ⟨rfl, .halts (by omega) holds round⟩

/-- The loop completes the rounds before its first stop, no more and no less, and ends
as it must in the context that they lead to. -/
theorem loop_of_firstStop (loc : Position) {k : Nat}
    (h : FirstStop test body m m.cap.count k) :
    ∃ n, context body m k = some n ∧
      Machine.repeatCounting (fun m => m.environment.test test) (exec body) loc m.cap.count m =
        (k, loop test body loc m) ∧
      Concludes test body loc m.cap.count k n (loop test body loc m) := by
  obtain ⟨left, hleft⟩ := Nat.exists_eq_add_of_le h.within
  obtain ⟨n, hcontext, hrounds⟩ := exists_rounds h.before
  have hstops : 0 < left → Stops test body n := by
    intro hpos
    obtain ⟨n', hcontext', hstops⟩ := h.stops (by omega)
    rw [hcontext] at hcontext'
    cases hcontext'
    exact hstops
  obtain ⟨hnone, hconcludes⟩ := concludes_of_rounds (k := k) loc hstops
  refine ⟨n, hcontext, ?_, ?_⟩
  · apply Prod.ext
    · rw [hleft, Machine.repeatCounting_of_rounds hrounds, hnone]
      rfl
    · exact Machine.repeatCounting_snd m.cap.count m
  · rw [loop, hleft, Machine.repeatWhile_of_rounds hrounds]
    exact hconcludes

end Program

end Crafter
