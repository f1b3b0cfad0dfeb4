import Crafter.Proofs.Reaching

/-! What the execution of a statement changes, and what it leaves as it was. The
stack, the breakpoints and the cap are the same afterwards, whether or not the
statement halts; output and notices only grow, and the flag is raised with the
first notice. Looking at an expression or a condition changes nothing, so that a
declaration or a print that halts has done nothing at all. -/
namespace Crafter

namespace Machine

/-- Notices were only appended, and the flag is up afterwards exactly if it was
before or some notice was appended. -/
def Flags (m after : Machine) : Prop :=
  ∃ noted, after.notices.toList = m.notices.toList ++ noted ∧
    (after.limitReached = true ↔ m.limitReached = true ∨ noted ≠ [])

/-- What the second machine owes to the first if only the names that `scope`
declares were given values in between. -/
structure Effect (scope : List Statement) (m after : Machine) : Prop where
  stack : after.stack = m.stack
  breakpoints : after.breakpoints = m.breakpoints
  cap : after.cap = m.cap
  output : m.output.toList <+: after.output.toList
  flags : m.Flags after
  bound : ∀ name, (m.environment.get? name).isSome = true →
    (after.environment.get? name).isSome = true
  frame : ∀ name, (∀ s ∈ scope, Lint.declaredName? s ≠ some name) →
    after.environment.get? name = m.environment.get? name

/-- All variables have their values, and nothing was printed or noted. -/
structure Unchanged (m after : Machine) : Prop where
  environment : after.environment = m.environment
  output : after.output = m.output
  notices : after.notices = m.notices
  limitReached : after.limitReached = m.limitReached

theorem Unchanged.refl (m : Machine) : m.Unchanged m := ⟨rfl, rfl, rfl, rfl⟩

theorem unchanged_enter (m : Machine) (frame : Frame) : m.Unchanged (m.enter frame) :=
  ⟨rfl, rfl, rfl, rfl⟩

theorem flags_of_eq {m after : Machine} (hnotices : after.notices = m.notices)
    (hflag : after.limitReached = m.limitReached) : m.Flags after := by
  refine ⟨[], ?_, ?_⟩
  · rw [hnotices, List.append_nil]
  · rw [hflag]
    simp

theorem Flags.trans {m n k : Machine} (h : m.Flags n) (h' : n.Flags k) : m.Flags k := by
  obtain ⟨noted, hnotices, hflag⟩ := h
  obtain ⟨noted', hnotices', hflag'⟩ := h'
  refine ⟨noted ++ noted', ?_, ?_⟩
  · rw [hnotices', hnotices, List.append_assoc]
  · have hne : noted ++ noted' ≠ [] ↔ noted ≠ [] ∨ noted' ≠ [] := by
      rw [Ne, List.append_eq_nil_iff, Classical.not_and_iff_not_or_not]
    rw [hflag', hflag, or_assoc, hne]

theorem flags_cutOff (m : Machine) (loc : Position) : m.Flags (m.cutOff loc) := by
  refine ⟨[limitNotice m.cap loc], Array.toList_push, ?_⟩
  have hflag : (m.cutOff loc).limitReached = true := rfl
  simp [hflag]

theorem flags_law : Step.Law fun m step => m.Flags step.2 :=
  .of_relation (fun _ => flags_of_eq rfl rfl) (fun _ _ _ => Flags.trans)
    (fun _ _ _ => flags_of_eq rfl rfl) (fun _ _ => flags_of_eq rfl rfl) flags_cutOff
    (fun _ _ _ h => h)

/-- A variable that has a value keeps one. -/
theorem bound_law (name : String) : Step.Law fun m step =>
    (m.environment.get? name).isSome = true → (step.2.environment.get? name).isSome = true := by
  refine .of_invariant ?_ (fun _ _ => id) (fun _ _ => id) (fun _ _ => id) (fun _ => id)
  intro m other x hbound
  change ((m.environment.insert other x).get? name).isSome = true
  rw [Environment.get?_insert]
  split
  · rfl
  · exact hbound

/-- What halts inside a statement and changes nothing, changes nothing outside. -/
theorem unchanged_within {m : Machine} {frame : Frame} {run : Machine → Step}
    (h : (run (m.enter frame)).1 ≠ none → (m.enter frame).Unchanged (run (m.enter frame)).2)
    (halted : (m.within frame run).1 ≠ none) : m.Unchanged (m.within frame run).2 := by
  by_cases hline : frame.loc.line ∈ m.breakpoints
  · rw [within_of_mem hline]
    exact .refl m
  · rw [within_of_not_mem hline] at halted ⊢
    obtain ⟨henvironment, houtput, hnotices, hflag⟩ := h halted
    exact ⟨henvironment, houtput, hnotices, hflag⟩

/-- A result that goes on with a value halts only if it is a fault. -/
theorem unchanged_evaluate {α : Type} {m : Machine} {next : α → Step}
    (goes : ∀ x, (next x).1 = none) (result : Except Fault α) (loc : Position)
    (halted : (m.evaluate result loc next).1 ≠ none) :
    m.Unchanged (m.evaluate result loc next).2 := by
  cases result with
  | error cause => exact .refl m
  | ok x => exact absurd (goes x) halted

end Machine

namespace Statement

theorem exec_flags (s : Statement) (m : Machine) : m.Flags (s.exec m).2 :=
  Machine.flags_law.of_statement s (Or.inr fun _ _ => Machine.flags_of_eq rfl rfl) m

theorem exec_effect (s : Statement) (m : Machine) : m.Effect s.withNested (s.exec m).2 := by
  have hkeeps := s.exec_keeps m
  have hgrows := s.exec_grows m
  refine ⟨hkeeps.stack, hkeeps.breakpoints, hkeeps.cap, hgrows.output, s.exec_flags m, ?_, ?_⟩
  · intro name
    exact (Machine.bound_law name).of_statement s (Or.inr fun _ _ => id) m
  · intro name hname
    exact Program.exec_statement_frame hname m

/-- A declaration or a print that halts has done nothing. -/
theorem exec_unchanged {s : Statement} {m : Machine}
    (form : s.kind = .declaration ∨ s.kind = .print) (halted : (s.exec m).1 ≠ none) :
    m.Unchanged (s.exec m).2 := by
  cases s with
  | declaration name value loc =>
    rw [exec] at halted ⊢
    exact Machine.unchanged_within (Machine.unchanged_evaluate (fun _ => rfl) _ loc) halted
  | printText contents loc =>
    rw [exec] at halted ⊢
    exact Machine.unchanged_within (fun h => absurd rfl h) halted
  | printValue value loc =>
    rw [exec] at halted ⊢
    exact Machine.unchanged_within (Machine.unchanged_evaluate (fun _ => rfl) _ loc) halted
  | conditional | loop | foreign | absent => rcases form with form | form <;> cases form

/-- Looking at the statement's own expression or condition changes nothing. A fault
leaves everything as it was, and a value is put to use in a machine that differs
from the one it was worked out in by the use alone. -/
structure Atomic (s : Statement) (m : Machine) : Prop where
  fault : ∀ cause, s.Fails m.environment cause → m.Unchanged (s.exec m).2
  declaration : ∀ name value loc, s = .declaration name value loc → (s.exec m).1 = none →
    ∃ x, m.environment.eval value = .ok x ∧ (m.bind name x).Unchanged (s.exec m).2
  print : ∀ value loc, s = .printValue value loc → (s.exec m).1 = none →
    ∃ x, m.environment.eval value = .ok x ∧ (m.print (Number.display x)).Unchanged (s.exec m).2
  conditional : ∀ test body alternative loc holds, s = .conditional test body alternative loc →
    loc.line ∉ m.breakpoints → m.environment.test test = .ok holds →
    ∃ n, m.Unchanged n ∧ s.exec m = (Program.exec (if holds then body else alternative) n).leave
  loop : ∀ test body loc k n, s = .loop test body loc → loc.line ∉ m.breakpoints →
    k ≤ m.cap.count →
    Machine.Rounds (fun m => m.environment.test test) (Program.exec body) k (m.enter s.frame) n →
    ((∀ cause, n.environment.test test = .error cause → n.Unchanged (s.exec m).2) ∧
      (n.environment.test test = .ok false → n.Unchanged (s.exec m).2) ∧
      (n.environment.test test = .ok true → k < m.cap.count → ∃ rest,
        s.exec m = ((Program.exec body n).andThen rest).leave) ∧
      (n.environment.test test = .ok true → k = m.cap.count →
        (n.cutOff loc).Unchanged (s.exec m).2))

/-- Where a breakpoint stops a statement, nothing has happened yet. -/
theorem exec_of_stop {s : Statement} {m : Machine} {cause : Fault}
    (h : s.Fails m.environment cause) (stop : s.loc.line ∈ m.breakpoints) :
    s.exec m = (some (.pause s.loc m.trace), m) := by
  cases s with
  | declaration | printValue | conditional | loop =>
    rw [exec]
    exact Machine.within_of_mem stop _
  | printText | foreign | absent => cases h

theorem unchanged_of_fails {s : Statement} {m : Machine} {cause : Fault}
    (h : s.Fails m.environment cause) : m.Unchanged (s.exec m).2 := by
  by_cases stop : s.loc.line ∈ m.breakpoints
  · rw [exec_of_stop h stop]
    exact .refl m
  · rw [Program.exec_of_fails h stop]
    exact ⟨rfl, rfl, rfl, rfl⟩

/-- A statement that evaluates its expression and comes to its end has used the
value, in the machine that it found but for the frame. -/
theorem exists_value_of_within {m : Machine} {frame : Frame} {value : String} {loc : Position}
    (use : Machine → Float → Machine)
    (done : (m.within frame fun m =>
      m.evaluate (m.environment.eval value) loc fun x => (none, use m x)).1 = none) :
    ∃ x, m.environment.eval value = .ok x ∧
      (m.within frame fun m =>
        m.evaluate (m.environment.eval value) loc fun x => (none, use m x)).2 =
        (use (m.enter frame) x).leave := by
  by_cases hline : frame.loc.line ∈ m.breakpoints
  · rw [Machine.within_of_mem hline] at done
    cases done
  · rw [Machine.within_of_not_mem hline] at done ⊢
    cases hvalue : (m.enter frame).environment.eval value with
    | error cause =>
      rw [hvalue] at done
      cases done
    | ok x => exact ⟨x, hvalue, rfl⟩

/-- After `k` full rounds the loop looks at its test, in a machine that the look
leaves alone. -/
theorem exec_loop_of_rounds {test : Condition} {body : List Statement} {loc : Position} {k : Nat}
    {m n : Machine} (free : loc.line ∉ m.breakpoints) (few : k ≤ m.cap.count)
    (rounds : Machine.Rounds (fun m => m.environment.test test) (Program.exec body) k
      (m.enter ⟨.loop, loc⟩) n) :
    (Statement.loop test body loc).exec m =
      (Machine.repeatWhile (fun m => m.environment.test test) (Program.exec body) loc
        (m.cap.count - k) n).leave := by
  have hcap : (m.enter ⟨.loop, loc⟩).cap.count = k + (m.cap.count - k) := by
    change m.cap.count = k + (m.cap.count - k)
    omega
  rw [Program.exec_loop, Machine.within_of_not_mem free, Program.loop, hcap,
    Machine.repeatWhile_of_rounds rounds]

theorem exec_atomic (s : Statement) (m : Machine) : s.Atomic m where
  fault cause := unchanged_of_fails
  declaration := by
    rintro name value loc rfl done
    rw [exec] at done ⊢
    obtain ⟨x, hvalue, hafter⟩ := exists_value_of_within (fun m x => m.bind name x) done
    refine ⟨x, hvalue, ?_⟩
    rw [hafter]
    exact ⟨rfl, rfl, rfl, rfl⟩
  print := by
    rintro value loc rfl done
    rw [exec] at done ⊢
    obtain ⟨x, hvalue, hafter⟩ :=
      exists_value_of_within (fun m x => m.print (Number.display x)) done
    refine ⟨x, hvalue, ?_⟩
    rw [hafter]
    exact ⟨rfl, rfl, rfl, rfl⟩
  conditional := by
    rintro test body alternative loc holds rfl free decided
    exact ⟨_, Machine.unchanged_enter m _, Program.exec_conditional free decided⟩
  loop := by
    rintro test body loc k n rfl free few rounds
    rw [exec_loop_of_rounds free few rounds]
    refine ⟨fun cause h => ?_, fun h => ?_, fun h hfew => ?_, fun h hall => ?_⟩
    · rw [Machine.repeatWhile_of_error h]
      exact ⟨rfl, rfl, rfl, rfl⟩
    · rw [Machine.repeatWhile_of_fails h]
      exact ⟨rfl, rfl, rfl, rfl⟩
    · -- a round is left, and its body is run on the machine that was looked at
      obtain ⟨left, hleft⟩ : ∃ left, m.cap.count - k = left + 1 := ⟨m.cap.count - k - 1, by omega⟩
      rw [hleft, Machine.repeatWhile_succ_of_holds h]
      exact ⟨_, rfl⟩
    · rw [hall, Nat.sub_self, Machine.repeatWhile_zero_of_holds h]
      exact ⟨rfl, rfl, rfl, rfl⟩

/-- What every statement owes to the machine that it finds, however it ends: its
effects are those listed, a declaration or a print that halts has none of them, and
looking at an expression or a condition has none either. -/
theorem exec_contract (s : Statement) (m : Machine) :
    m.Effect s.withNested (s.exec m).2 ∧
    ((s.kind = .declaration ∨ s.kind = .print) → (s.exec m).1 ≠ none →
      m.Unchanged (s.exec m).2) ∧
    s.Atomic m :=
  ⟨s.exec_effect m, fun form halted => exec_unchanged form halted, s.exec_atomic m⟩

end Statement

end Crafter
