import Crafter.Proofs.Iteration
import Crafter.Run.Outcome

/-! The notices of a run. Every notice stands for one execution of a loop that the cap
has cut off, and every such execution has its notice. An execution is a statement with
the machine that it is begun on; no two of a run are the same, because the number of
statements that were begun grows with each of them. -/
namespace Crafter

namespace Machine

/-- How many statements were begun so far. -/
def age (m : Machine) : Nat := m.entered.size

theorem age_enter (m : Machine) (frame : Frame) : (m.enter frame).age = m.age + 1 :=
  Array.size_push frame

theorem age_law : Step.Law fun m step => m.age ≤ step.2.age := by
  refine .of_relation (R := fun m after => m.age ≤ after.age) (fun m => Nat.le_refl m.age)
    (fun _ _ _ => Nat.le_trans) (fun m _ _ => Nat.le_refl m.age) (fun m _ => Nat.le_refl m.age)
    (fun m _ => Nat.le_refl m.age) ?_
  intro m frame after h
  rw [age_enter] at h
  exact Nat.le_of_succ_le h

end Machine

theorem Statement.age_exec (s : Statement) (m : Machine) : m.age ≤ (s.exec m).2.age :=
  Machine.age_law.of_statement s (Or.inr fun m _ => Nat.le_refl m.age) m

theorem Program.age_exec (p : List Statement) (m : Machine) : m.age ≤ (exec p m).2.age :=
  Machine.age_law.of_program p (Or.inr fun m _ => Nat.le_refl m.age) m

/-- An execution of a statement: the statement and the machine that it is begun on. -/
abbrev Execution := Statement × Machine

namespace Execution

/-- The condition still holds after as many rounds as the cap allows. -/
def Limited (test : Condition) (body : List Statement) (rounds : Nat) (m : Machine) : Prop :=
  ∃ n, Machine.Rounds (fun m => m.environment.test test) (Program.exec body) rounds m n ∧
    n.environment.test test = .ok true

/-- The execution is one of a loop that is cut off. -/
inductive CutOff : Execution → Prop
  | loop {test : Condition} {body : List Statement} {loc : Position} {m : Machine}
      (free : loc.line ∉ m.breakpoints)
      (limited : Limited test body m.cap.count (m.enter ⟨.loop, loc⟩)) :
      CutOff (.loop test body loc, m)

def notice (x : Execution) : Diagnostic := Machine.limitNotice x.2.cap x.1.loc

/-- The execution is begun on the way of a run of the block. -/
def Of (p : List Statement) (m : Machine) (x : Execution) : Prop :=
  ∃ rest, Program.Reaches p m (x.1 :: rest) x.2

/-- A run from `m` to `after` has appended the notices of the listed executions, which
are those among the given ones that were cut off. -/
structure Tally (given : Execution → Prop) (m after : Machine) (cut : List Execution) :
    Prop where
  mem : ∀ x, x ∈ cut ↔ given x ∧ x.CutOff
  nodup : cut.Nodup
  since : ∀ x ∈ cut, m.age ≤ x.2.age
  before : ∀ x ∈ cut, x.2.age < after.age
  notices : after.notices.toList = m.notices.toList ++ cut.map notice

variable {P Q R : Execution → Prop} {m n after : Machine} {cut : List Execution}

theorem tally_nil (h : ∀ x, P x → ¬ x.CutOff) (hnotices : after.notices = m.notices) :
    Tally P m after [] where
  mem x := by
    constructor
    · nofun
    · exact fun hx => absurd hx.2 (h x hx.1)
  nodup := List.nodup_nil
  since := nofun
  before := nofun
  notices := by rw [hnotices, List.map_nil, List.append_nil]

/-- What was begun before the machine in between is none of what was begun after it. -/
theorem Tally.append {rest : List Execution} (h : Tally P m n cut) (h' : Tally Q n after rest)
    (hmn : m.age ≤ n.age) (hafter : n.age ≤ after.age)
    (hR : ∀ x, x.CutOff → (R x ↔ P x ∨ Q x)) : Tally R m after (cut ++ rest) where
  mem x := by
    rw [List.mem_append, h.mem, h'.mem, ← or_and_right]
    exact and_congr_left fun hx => (hR x hx).symm
  nodup := by
    refine List.nodup_append.mpr ⟨h.nodup, h'.nodup, ?_⟩
    rintro x hx y hy rfl
    have hbefore := h.before x hx
    have hsince := h'.since x hy
    omega
  since x hx := by
    rcases List.mem_append.mp hx with hx | hx
    · exact h.since x hx
    · exact Nat.le_trans hmn (h'.since x hx)
  before x hx := by
    rcases List.mem_append.mp hx with hx | hx
    · exact Nat.lt_of_lt_of_le (h.before x hx) hafter
    · exact h'.before x hx
  notices := by rw [h'.notices, h.notices, List.map_append, List.append_assoc]

/-- The executions inside a statement, seen from outside it. -/
theorem Tally.leave {frame : Frame} (h : Tally Q (m.enter frame) after cut)
    (hP : ∀ x, x.CutOff → (P x ↔ Q x)) : Tally P m after.leave cut where
  mem x := by
    rw [h.mem]
    exact and_congr_left fun hx => (hP x hx).symm
  nodup := h.nodup
  since x hx := by
    have hsince := h.since x hx
    rw [Machine.age_enter] at hsince
    omega
  before := h.before
  notices := h.notices

/-- A loop that is cut off comes after all executions inside it. -/
theorem Tally.cutOff {test : Condition} {body : List Statement} {loc : Position}
    (h : Tally Q (m.enter ⟨.loop, loc⟩) after cut) (free : loc.line ∉ m.breakpoints)
    (limited : Limited test body m.cap.count (m.enter ⟨.loop, loc⟩))
    (hcap : after.cap = m.cap) (hage : (m.enter ⟨.loop, loc⟩).age ≤ after.age)
    (hP : ∀ x, x.CutOff → (P x ↔ Q x ∨ x = (.loop test body loc, m))) :
    Tally P m (after.cutOff loc).leave (cut ++ [(.loop test body loc, m)]) where
  mem x := by
    rw [List.mem_append, h.mem, List.mem_singleton]
    constructor
    · rintro (⟨hx, hcut⟩ | rfl)
      · exact ⟨(hP x hcut).mpr (Or.inl hx), hcut⟩
      · exact ⟨(hP _ (.loop free limited)).mpr (Or.inr rfl), .loop free limited⟩
    · rintro ⟨hx, hcut⟩
      exact ((hP x hcut).mp hx).imp_left fun hx => ⟨hx, hcut⟩
  nodup := by
    refine List.nodup_append.mpr ⟨h.nodup, List.pairwise_singleton _ _, ?_⟩
    rintro x hx y hy rfl
    -- entering the loop has made the machine older than the one that it was begun on
    have hsince := h.since x hx
    rw [List.mem_singleton.mp hy, Machine.age_enter] at hsince
    exact Nat.lt_irrefl m.age hsince
  since x hx := by
    rcases List.mem_append.mp hx with hx | hx
    · have hsince := h.since x hx
      rw [Machine.age_enter] at hsince
      omega
    · obtain rfl := List.mem_singleton.mp hx
      exact Nat.le_refl m.age
  before x hx := by
    rcases List.mem_append.mp hx with hx | hx
    · exact h.before x hx
    · obtain rfl := List.mem_singleton.mp hx
      rw [Machine.age_enter] at hage
      exact hage
  notices := by
    have hnotices : (after.cutOff loc).leave.notices.toList =
        after.notices.toList ++ [Machine.limitNotice after.cap loc] := Array.toList_push
    rw [hnotices, h.notices, hcap, List.map_append, List.append_assoc]
    rfl

end Execution

namespace Program

open Execution

variable {p rest : List Statement} {s : Statement} {m n : Machine} {x : Execution}

/-- What a run does inside a statement that it begins. -/
inductive Inner : Statement → Machine → List Statement → Machine → Prop
  | branch {test : Condition} {body alternative : List Statement} {loc : Position} {m : Machine}
      {holds : Bool} (free : loc.line ∉ m.breakpoints)
      (decided : m.environment.test test = .ok holds) :
      Inner (.conditional test body alternative loc) m (if holds then body else alternative)
        (m.enter ⟨.conditional, loc⟩)
  | round {test : Condition} {body : List Statement} {loc : Position} {m n : Machine} {k : Nat}
      (free : loc.line ∉ m.breakpoints) (few : k < m.cap.count)
      (rounds : Machine.Rounds (fun m => m.environment.test test) (exec body) k
        (m.enter ⟨.loop, loc⟩) n)
      (holds : n.environment.test test = .ok true) : Inner (.loop test body loc) m body n

/-- The execution is that of the statement, or one inside it. -/
def Within (s : Statement) (m : Machine) (x : Execution) : Prop :=
  x = (s, m) ∨ ∃ q n, Inner s m q n ∧ Of q n x

theorem not_of_nil : ¬ Of [] m x := by
  rintro ⟨rest, hreaches⟩
  cases hreaches with
  | further first => cases first

theorem of_cons_iff : Of (s :: rest) m x ↔
    Within s m x ∨ ∃ after, s.exec m = (none, after) ∧ Of rest after x := by
  constructor
  · rintro ⟨others, hreaches⟩
    obtain ⟨t, n⟩ := x
    cases hreaches with
    | here => exact Or.inl (Or.inl rfl)
    | further first others =>
      cases first with
      | next done => exact Or.inr ⟨_, done, _, others⟩
      | branch free decided =>
        exact Or.inl (Or.inr ⟨_, _, .branch free decided, _, others⟩)
      | round free few rounds holds =>
        exact Or.inl (Or.inr ⟨_, _, .round free few rounds holds, _, others⟩)
  · rintro ((rfl | ⟨q, n, hinner, others, hreaches⟩) | ⟨after, done, others, hreaches⟩)
    · exact ⟨rest, .here _ _⟩
    · refine ⟨others, ?_⟩
      cases hinner with
      | branch free decided => exact .further (.branch free decided) hreaches
      | round free few rounds holds => exact .further (.round free few rounds holds) hreaches
    · exact ⟨others, .further (.next done) hreaches⟩

/-- A breakpoint at a statement leaves nothing to be begun. -/
theorem not_cutOff_of_stop (stop : s.loc.line ∈ m.breakpoints) (h : Within s m x) :
    ¬ x.CutOff := by
  rcases h with rfl | ⟨q, n, hinner, -⟩
  · intro hcut
    cases hcut with
    | loop free => exact free stop
  · cases hinner with
    | branch free => exact absurd stop free
    | round free => exact absurd stop free

/-- Nothing is cut off in a statement without blocks. -/
theorem not_cutOff_of_plain (hkind : s.kind ≠ .loop) (hinner : ∀ q n, ¬ Inner s m q n)
    (h : Within s m x) : ¬ x.CutOff := by
  rcases h with rfl | ⟨q, n, h, -⟩
  · intro hcut
    cases hcut with
    | loop => exact hkind rfl
  · exact absurd h (hinner q n)

/-- The executions in the rounds of a loop that are left. -/
def Later (test : Condition) (body : List Statement) (left : Nat) (n : Machine)
    (x : Execution) : Prop :=
  ∃ k after, k < left ∧
    Machine.Rounds (fun m => m.environment.test test) (exec body) k n after ∧
    after.environment.test test = .ok true ∧ Of body after x

variable {test : Condition} {body : List Statement} {loc : Position}

theorem holds_of_later {left : Nat} (h : Later test body left n x) :
    n.environment.test test = .ok true := by
  obtain ⟨k, after, -, rounds, holds, -⟩ := h
  exact rounds.holds holds

theorem holds_of_limited {left : Nat} (h : Limited test body left n) :
    n.environment.test test = .ok true := by
  obtain ⟨after, rounds, holds⟩ := h
  exact rounds.holds holds

theorem later_succ_iff {left : Nat} (holds : n.environment.test test = .ok true) :
    Later test body (left + 1) n x ↔
      Of body n x ∨ ∃ after, exec body n = (none, after) ∧ Later test body left after x := by
  constructor
  · rintro ⟨k, last, few, rounds, hlast, hx⟩
    cases rounds with
    | zero => exact Or.inl hx
    | @succ k _ after _ _ round rounds =>
      exact Or.inr ⟨after, round, k, last, Nat.lt_of_succ_lt_succ few, rounds, hlast, hx⟩
  · rintro (hx | ⟨after, round, k, last, few, rounds, hlast, hx⟩)
    · exact ⟨0, n, Nat.succ_pos left, .zero n, holds, hx⟩
    · exact ⟨k + 1, last, Nat.succ_lt_succ few, .succ holds round rounds, hlast, hx⟩

theorem limited_succ_iff {left : Nat} {after : Machine}
    (holds : n.environment.test test = .ok true) (round : exec body n = (none, after)) :
    Limited test body (left + 1) n ↔ Limited test body left after := by
  constructor
  · rintro ⟨last, rounds, hlast⟩
    cases rounds with
    | succ _ round' rounds =>
      rw [round] at round'
      cases round'
      exact ⟨last, rounds, hlast⟩
  · rintro ⟨last, rounds, hlast⟩
    exact ⟨last, .succ holds round rounds, hlast⟩

/-- The rounds that are left, up to where the loop ends or is cut off. -/
structure Rest (test : Condition) (body : List Statement) (loc : Position) (left : Nat)
    (n last : Machine) (cut : List Execution) : Prop where
  tally : Tally (Later test body left n) n last cut
  age : n.age ≤ last.age
  cap : last.cap = n.cap
  result : Limited test body left n ∧
      Machine.repeatWhile (fun m => m.environment.test test) (exec body) loc left n =
        (none, last.cutOff loc) ∨
    ¬ Limited test body left n ∧
      (Machine.repeatWhile (fun m => m.environment.test test) (exec body) loc left n).2 = last

/-- A loop whose condition does not hold begins nothing more. -/
theorem rest_of_not_holds (left : Nat) (h : n.environment.test test ≠ .ok true) :
    Rest test body loc left n n [] := by
  refine ⟨tally_nil (fun _ hx => absurd (holds_of_later hx) h) rfl, Nat.le_refl _, rfl, ?_⟩
  refine Or.inr ⟨fun hlimited => h (holds_of_limited hlimited), ?_⟩
  cases htest : n.environment.test test with
  | error cause =>
    rw [Machine.repeatWhile_of_error htest]
    rfl
  | ok holds =>
    cases holds with
    | false => rw [Machine.repeatWhile_of_fails htest]
    | true => exact absurd htest h

/-- Where no round is left and the condition holds, the loop is cut off. -/
theorem rest_of_limit (holds : n.environment.test test = .ok true) :
    Rest test body loc 0 n n [] := by
  have hlater : ∀ x, Later test body 0 n x → ¬ x.CutOff := by
    rintro x ⟨k, _, few, -⟩
    exact absurd few (Nat.not_lt_zero k)
  have hlimited : Limited test body 0 n := ⟨n, .zero n, holds⟩
  refine ⟨tally_nil hlater rfl, Nat.le_refl _, rfl, Or.inl ⟨hlimited, ?_⟩⟩
  exact Machine.repeatWhile_zero_of_holds holds

/-- The age never falls, and the cap stays as it was. -/
theorem age_cap_of_exec {p : List Statement} {halt : Option Halt} (h : exec p n = (halt, after)) :
    n.age ≤ after.age ∧ after.cap = n.cap := by
  have hage := age_exec p n
  have hcap := (exec_keeps p n).cap
  rw [h] at hage hcap
  exact ⟨hage, hcap⟩

/-- A body that comes to its end leaves the other rounds to be gone through. -/
theorem Rest.round {left : Nat} {last : Machine} {others : List Execution}
    (h : Rest test body loc left after last others)
    (holds : n.environment.test test = .ok true) (round : exec body n = (none, after))
    (htally : Tally (Of body n) n after cut) :
    Rest test body loc (left + 1) n last (cut ++ others) := by
  obtain ⟨hage, hcap⟩ := age_cap_of_exec round
  refine ⟨htally.append h.tally hage h.age ?_, Nat.le_trans hage h.age, h.cap.trans hcap, ?_⟩
  · intro x _
    rw [later_succ_iff holds, round]
    simp
  · rw [limited_succ_iff holds round, Machine.repeatWhile_succ_of_holds holds, round,
      Step.andThen_none]
    exact h.result

/-- After a body that has halted no later round is begun. -/
theorem rest_of_halt (left : Nat) {halt : Halt} (holds : n.environment.test test = .ok true)
    (round : exec body n = (some halt, after)) (htally : Tally (Of body n) n after cut) :
    Rest test body loc (left + 1) n after cut := by
  obtain ⟨hage, hcap⟩ := age_cap_of_exec round
  have hlater (x : Execution) : Later test body (left + 1) n x ↔ Of body n x := by
    rw [later_succ_iff holds, round]
    simp
  have hlimited : ¬ Limited test body (left + 1) n := by
    rintro ⟨last, rounds, -⟩
    cases rounds with
    | succ _ round' =>
      rw [round] at round'
      cases round'
  refine ⟨?_, hage, hcap, Or.inr ⟨hlimited, ?_⟩⟩
  · rwa [funext fun x => propext (hlater x)]
  · rw [Machine.repeatWhile_succ_of_holds holds, round, Step.andThen_some]

/-- The induction is on the rounds that are left. -/
theorem exists_rest (hbody : ∀ n, ∃ cut, Tally (Of body n) n (exec body n).2 cut) (left : Nat)
    (n : Machine) : ∃ last cut, Rest test body loc left n last cut := by
  induction left generalizing n with
  | zero =>
    by_cases holds : n.environment.test test = .ok true
    · exact ⟨n, [], rest_of_limit holds⟩
    · exact ⟨n, [], rest_of_not_holds 0 holds⟩
  | succ left ih =>
    by_cases holds : n.environment.test test = .ok true
    · obtain ⟨cut, htally⟩ := hbody n
      rcases hround : exec body n with ⟨_ | halt, after⟩
      · rw [hround] at htally
        obtain ⟨last, others, hrest⟩ := ih after
        exact ⟨last, cut ++ others, hrest.round holds hround htally⟩
      · rw [hround] at htally
        exact ⟨after, cut, rest_of_halt left holds hround htally⟩
    · exact ⟨n, [], rest_of_not_holds (left + 1) holds⟩

theorem within_loop_iff (free : loc.line ∉ m.breakpoints) :
    Within (.loop test body loc) m x ↔
      Later test body m.cap.count (m.enter ⟨.loop, loc⟩) x ∨ x = (.loop test body loc, m) := by
  constructor
  · rintro (rfl | ⟨q, n, hinner, hx⟩)
    · exact Or.inr rfl
    · cases hinner with
      | round _ few rounds holds => exact Or.inl ⟨_, n, few, rounds, holds, hx⟩
  · rintro (⟨k, n, few, rounds, holds, hx⟩ | rfl)
    · exact Or.inr ⟨body, n, .round free few rounds holds, hx⟩
    · exact Or.inl rfl

theorem within_conditional_iff {alternative : List Statement} {holds : Bool}
    (free : loc.line ∉ m.breakpoints) (decided : m.environment.test test = .ok holds)
    (hcut : x.CutOff) : Within (.conditional test body alternative loc) m x ↔
      Of (if holds then body else alternative) (m.enter ⟨.conditional, loc⟩) x := by
  constructor
  · rintro (rfl | ⟨q, n, hinner, hx⟩)
    · cases hcut
    · cases hinner with
      | branch _ decided' =>
        rw [decided] at decided'
        cases decided'
        exact hx
  · exact fun hx => Or.inr ⟨_, _, .branch free decided, hx⟩

theorem exists_tally_conditional {alternative : List Statement}
    (hbody : ∀ n, ∃ cut, Tally (Of body n) n (exec body n).2 cut)
    (halternative : ∀ n, ∃ cut, Tally (Of alternative n) n (exec alternative n).2 cut)
    (m : Machine) : ∃ cut, Tally (Within (.conditional test body alternative loc) m) m
      ((Statement.conditional test body alternative loc).exec m).2 cut := by
  by_cases stop : loc.line ∈ m.breakpoints
  · refine ⟨[], tally_nil (fun _ => not_cutOff_of_stop stop) ?_⟩
    rw [Statement.exec, Machine.within_of_mem stop]
  cases htest : m.environment.test test with
  | error cause =>
    have hinner : ∀ q n, ¬ Inner (.conditional test body alternative loc) m q n := by
      rintro q n ⟨_, decided⟩
      rw [htest] at decided
      cases decided
    have hfails : (Statement.conditional test body alternative loc).Fails m.environment cause :=
      htest
    refine ⟨[], tally_nil (fun _ => not_cutOff_of_plain nofun hinner) ?_⟩
    rw [exec_of_fails hfails stop]
    rfl
  | ok holds =>
    rw [exec_conditional stop htest]
    cases holds with
    | false =>
      obtain ⟨cut, htally⟩ := halternative (m.enter ⟨.conditional, loc⟩)
      exact ⟨cut, htally.leave fun _ => within_conditional_iff stop htest⟩
    | true =>
      obtain ⟨cut, htally⟩ := hbody (m.enter ⟨.conditional, loc⟩)
      exact ⟨cut, htally.leave fun _ => within_conditional_iff stop htest⟩

/-- The loop itself is the last to be cut off, if it is. -/
theorem exists_tally_loop (hbody : ∀ n, ∃ cut, Tally (Of body n) n (exec body n).2 cut)
    (m : Machine) : ∃ cut, Tally (Within (.loop test body loc) m) m
      ((Statement.loop test body loc).exec m).2 cut := by
  by_cases stop : loc.line ∈ m.breakpoints
  · refine ⟨[], tally_nil (fun _ => not_cutOff_of_stop stop) ?_⟩
    rw [Statement.exec, Machine.within_of_mem stop]
  obtain ⟨last, cut, hrest⟩ : ∃ last cut,
      Rest test body loc m.cap.count (m.enter ⟨.loop, loc⟩) last cut :=
    exists_rest hbody m.cap.count (m.enter ⟨.loop, loc⟩)
  rw [exec_loop, Machine.within_of_not_mem stop]
  rcases hrest.result with ⟨hlimited, hresult⟩ | ⟨hlimited, hresult⟩
  · have hloop : loop test body loc (m.enter ⟨.loop, loc⟩) = (none, last.cutOff loc) := hresult
    refine ⟨cut ++ [(.loop test body loc, m)], ?_⟩
    rw [hloop]
    exact hrest.tally.cutOff stop hlimited hrest.cap hrest.age fun x _ => within_loop_iff stop
  · have hloop : (loop test body loc (m.enter ⟨.loop, loc⟩)).2 = last := hresult
    have hleave : (loop test body loc (m.enter ⟨.loop, loc⟩)).leave.2 = last.leave :=
      congrArg Machine.leave hloop
    refine ⟨cut, ?_⟩
    rw [hleave]
    refine hrest.tally.leave fun x hcut => ?_
    rw [within_loop_iff stop, or_iff_left]
    rintro rfl
    cases hcut with
    | loop _ limited => exact hlimited limited

theorem notices_within {frame : Frame} {run : Machine → Step}
    (h : ∀ n, (run n).2.notices = n.notices) : (m.within frame run).2.notices = m.notices := by
  by_cases hline : frame.loc.line ∈ m.breakpoints
  · rw [Machine.within_of_mem hline]
  · rw [Machine.within_of_not_mem hline]
    exact h (m.enter frame)

theorem notices_evaluate {α : Type} {result : Except Fault α} {next : α → Step}
    (h : ∀ y, (next y).2.notices = m.notices) :
    (m.evaluate result loc next).2.notices = m.notices := by
  cases result with
  | error cause => rfl
  | ok y => exact h y

end Program

mutual

theorem Statement.exists_tally : ∀ (s : Statement) (m : Machine),
    ∃ cut, Execution.Tally (Program.Within s m) m (s.exec m).2 cut
  | .declaration name value loc, m => by
    refine ⟨[], Execution.tally_nil (fun _ => Program.not_cutOff_of_plain nofun nofun) ?_⟩
    rw [Statement.exec]
    exact Program.notices_within fun _ => Program.notices_evaluate fun _ => rfl
  | .printText contents loc, m => by
    refine ⟨[], Execution.tally_nil (fun _ => Program.not_cutOff_of_plain nofun nofun) ?_⟩
    rw [Statement.exec]
    exact Program.notices_within fun _ => rfl
  | .printValue value loc, m => by
    refine ⟨[], Execution.tally_nil (fun _ => Program.not_cutOff_of_plain nofun nofun) ?_⟩
    rw [Statement.exec]
    exact Program.notices_within fun _ => Program.notices_evaluate fun _ => rfl
  | .conditional _ body alternative _, m =>
    Program.exists_tally_conditional (Program.exists_tally body)
      (Program.exists_tally alternative) m
  | .loop _ body _, m => Program.exists_tally_loop (Program.exists_tally body) m
  | .foreign name body loc, m => by
    refine ⟨[], Execution.tally_nil (fun _ => Program.not_cutOff_of_plain nofun nofun) ?_⟩
    rw [Statement.exec]
    exact Program.notices_within fun _ => rfl
  | .absent part, m => by
    refine ⟨[], Execution.tally_nil (fun _ => Program.not_cutOff_of_plain nofun nofun) ?_⟩
    rw [Statement.exec]

theorem Program.exists_tally : ∀ (p : List Statement) (m : Machine),
    ∃ cut, Execution.Tally (Execution.Of p m) m (Program.exec p m).2 cut
  | [], m => by
    rw [Program.exec_nil]
    exact ⟨[], Execution.tally_nil (fun _ hx => absurd hx Program.not_of_nil) rfl⟩
  | s :: rest, m => by
    obtain ⟨cut, htally⟩ := Statement.exists_tally s m
    have hage := s.age_exec m
    rw [Program.exec_cons]
    rcases hexec : s.exec m with ⟨_ | halt, after⟩
    · rw [hexec] at htally hage
      obtain ⟨others, hothers⟩ := Program.exists_tally rest after
      refine ⟨cut ++ others, ?_⟩
      rw [Step.andThen_none]
      refine htally.append hothers hage (Program.age_exec rest after) fun x _ => ?_
      rw [Program.of_cons_iff, hexec]
      simp
    · refine ⟨cut, ?_⟩
      have hof (x : Execution) : Execution.Of (s :: rest) m x ↔ Program.Within s m x := by
        rw [Program.of_cons_iff, hexec]
        simp
      rw [hexec] at htally
      rw [Step.andThen_some, funext fun x => propext (hof x)]
      exact htally

end

namespace Program

/-- A loop completes the rounds before the first context in which it stops, and ends
as that context tells; and the notices of a run are those of the loop executions that
the cap cut off, one for each. -/
theorem loops_run (p : Program) (breakpoints : Breakpoints) (cap : Cap) :
    (∀ (test : Condition) (body : List Statement) (loc : Position) (m : Machine),
      (∃! k, FirstStop test body m m.cap.count k) ∧
      ∀ k, FirstStop test body m m.cap.count k → ∃ n, context body m k = some n ∧
        Machine.repeatCounting (fun m => m.environment.test test) (exec body) loc m.cap.count m =
          (k, loop test body loc m) ∧
        Concludes test body loc m.cap.count k n (loop test body loc m)) ∧
    ∃ cut : List Execution, cut.Nodup ∧
      (∀ x, x ∈ cut ↔ Execution.Of p (.start breakpoints cap) x ∧ x.CutOff) ∧
      (p.run breakpoints cap).notices = cut.map Execution.notice ∧
      (p.run breakpoints cap).notices.length = cut.length := by
  refine ⟨fun test body loc m => ⟨existsUnique_firstStop test body m _, ?_⟩, ?_⟩
  · exact fun k h => loop_of_firstStop loc h
  · obtain ⟨cut, htally⟩ := exists_tally p (.start breakpoints cap)
    have hnotices : (p.run breakpoints cap).notices = cut.map Execution.notice := htally.notices
    refine ⟨cut, htally.nodup, htally.mem, hnotices, ?_⟩
    rw [hnotices, List.length_map]

end Program

end Crafter
