import Crafter.Proofs.Kept
import Crafter.Proofs.Rounds
import Mathlib.Algebra.BigOperators.Group.List.Basic
import Mathlib.Tactic.Ring

/-! How often a run begins each statement of a program. Statements are told apart by
where they stand, for two of them may be equal. A statement inside some loops is begun
at most as often as the cap allows for all of them together, and the frames that a run
enters are those of its visits, no more and no fewer. -/
namespace Crafter

/-- A place in a block where a statement stands, at top level or inside. -/
inductive Site : List Statement → Type where
  | here (s : Statement) (rest : List Statement) : Site (s :: rest)
  | later (s : Statement) {rest : List Statement} (site : Site rest) : Site (s :: rest)
  | consequence (test : Condition) {body : List Statement} (alternative : List Statement)
      (loc : Position) (rest : List Statement) (site : Site body) :
      Site (.conditional test body alternative loc :: rest)
  | alternative (test : Condition) (body : List Statement) {alternative : List Statement}
      (loc : Position) (rest : List Statement) (site : Site alternative) :
      Site (.conditional test body alternative loc :: rest)
  | repeated (test : Condition) {body : List Statement} (loc : Position)
      (rest : List Statement) (site : Site body) : Site (.loop test body loc :: rest)

/-- What a quantity comes to after a step: nothing if the step has halted. -/
def Step.onward (step : Step) (quantity : Machine → Nat) : Nat :=
  match step with
  | (none, after) => quantity after
  | (some _, _) => 0

namespace Machine

/-- What a quantity comes to inside a statement: nothing if a breakpoint stops it. -/
def inside (m : Machine) (frame : Frame) (quantity : Machine → Nat) : Nat :=
  if frame.loc.line ∈ m.breakpoints then 0 else quantity (m.enter frame)

/-- What a quantity comes to if the test has the given outcome, and otherwise nothing. -/
def whenever (m : Machine) (test : Condition) (outcome : Bool) (quantity : Machine → Nat) : Nat :=
  if m.environment.test test = .ok outcome then quantity m else 0

/-- What a quantity comes to over the rounds of a loop, of which some are left. -/
def overRounds (test : Condition) (body : List Statement) (quantity : Machine → Nat) :
    Nat → Machine → Nat
  | 0, _ => 0
  | rounds + 1, m => m.whenever test true fun m =>
    quantity m + (Program.exec body m).onward (overRounds test body quantity rounds)

end Machine

namespace Site

/-- The statement that stands there. -/
def statement : {p : List Statement} → Site p → Statement
  | _, .here s _ => s
  | _, .later _ site | _, .consequence _ _ _ _ site | _, .alternative _ _ _ _ site
  | _, .repeated _ _ _ site => site.statement

/-- How many loops it stands in. -/
def loops : {p : List Statement} → Site p → Nat
  | _, .here _ _ => 0
  | _, .later _ site | _, .consequence _ _ _ _ site | _, .alternative _ _ _ _ site => site.loops
  | _, .repeated _ _ _ site => site.loops + 1

/-- How often a run of the block begins the statement there. -/
def visits : {p : List Statement} → Site p → Machine → Nat
  | _, .here s _, m => m.inside s.frame fun _ => 1
  | _, .later s site, m => (s.exec m).onward site.visits
  | _, .consequence test _ loc _ site, m =>
    m.inside ⟨.conditional, loc⟩ fun m => m.whenever test true site.visits
  | _, .alternative test _ loc _ site, m =>
    m.inside ⟨.conditional, loc⟩ fun m => m.whenever test false site.visits
  | _, @repeated test body loc _ site, m =>
    m.inside ⟨.loop, loc⟩ fun m => m.overRounds test body site.visits m.cap.count

end Site

section

variable {quantity : Machine → Nat}

theorem Step.onward_le {step : Step} {bound : Nat} (h : quantity step.2 ≤ bound) :
    step.onward quantity ≤ bound := by
  obtain ⟨_ | halt, after⟩ := step
  · exact h
  · exact Nat.zero_le bound

namespace Machine

variable {m : Machine} {bound : Nat}

theorem inside_le {frame : Frame} (h : quantity (m.enter frame) ≤ bound) :
    m.inside frame quantity ≤ bound := by
  unfold inside
  split
  · exact Nat.zero_le bound
  · exact h

theorem whenever_le {test : Condition} {outcome : Bool} (h : quantity m ≤ bound) :
    m.whenever test outcome quantity ≤ bound := by
  unfold whenever
  split
  · exact h
  · exact Nat.zero_le bound

/-- Each round adds no more than the most that the quantity comes to under the cap. -/
theorem overRounds_le {test : Condition} {body : List Statement}
    (h : ∀ n : Machine, n.cap = m.cap → quantity n ≤ bound) (rounds : Nat) :
    m.overRounds test body quantity rounds ≤ rounds * bound := by
  induction rounds generalizing m with
  | zero => exact Nat.zero_le _
  | succ rounds ih =>
    have hcap := (Program.exec_keeps body m).cap
    have hround := h m rfl
    have hrest : (Program.exec body m).onward (overRounds test body quantity rounds) ≤
        rounds * bound := by
      refine Step.onward_le (ih fun n hn => h n (hn.trans hcap))
    rw [overRounds, Nat.succ_mul]
    refine whenever_le ?_
    omega

end Machine

/-- A statement is begun at most as often as the loops around it can have rounds. -/
theorem Site.visits_le {p : List Statement} (site : Site p) (m : Machine) :
    site.visits m ≤ m.cap.count ^ site.loops := by
  induction site generalizing m with
  | here s rest => exact Machine.inside_le (Nat.le_refl 1)
  | later s site ih =>
    have hcap := (s.exec_keeps m).cap
    have hsite := ih (s.exec m).2
    rw [hcap] at hsite
    exact Step.onward_le hsite
  | consequence test alternative loc rest site ih =>
    exact Machine.inside_le (Machine.whenever_le (ih _))
  | alternative test body loc rest site ih =>
    exact Machine.inside_le (Machine.whenever_le (ih _))
  | repeated test loc rest site ih =>
    refine Machine.inside_le ?_
    change _ ≤ m.cap.count ^ (site.loops + 1)
    rw [Nat.pow_succ']
    refine Machine.overRounds_le (fun n hn => ?_) m.cap.count
    have hsite := ih n
    rwa [hn] at hsite

end

mutual

/-- The places in a block whose first statement is `s` where that statement and those inside
it stand, in the order of the text. -/
def Statement.sites : (s : Statement) → (rest : List Statement) → List (Site (s :: rest))
  | .conditional test body alternative loc, rest =>
    .here (.conditional test body alternative loc) rest ::
      ((Program.sites body).map (.consequence test alternative loc rest) ++
        (Program.sites alternative).map (.alternative test body loc rest))
  | .loop test body loc, rest =>
    .here (.loop test body loc) rest :: (Program.sites body).map (.repeated test loc rest)
  | s, rest => [.here s rest]

/-- All places in a block where statements stand, in the order of the text. -/
def Program.sites : (p : List Statement) → List (Site p)
  | [] => []
  | s :: rest => s.sites rest ++ (Program.sites rest).map (.later s)

end

mutual

theorem Statement.map_sites : ∀ (s : Statement) (rest : List Statement), s.Genuine →
    (s.sites rest).map Site.statement = s.withNested
  | .declaration .., _, _ | .printText .., _, _ | .printValue .., _, _ => rfl
  | .conditional test body alternative loc, rest, h => by
    rw [Statement.sites, Statement.withNested, ← Program.map_sites body h.1,
      ← Program.map_sites alternative h.2, List.map_cons, List.map_append, List.map_map,
      List.map_map]
    rfl
  | .loop test body loc, rest, h => by
    rw [Statement.sites, Statement.withNested, ← Program.map_sites body h, List.map_cons,
      List.map_map]
    rfl
  | .foreign .., _, h | .absent _, _, h => h.elim

/-- The places of a tree hold its statements, in the order of the walk. -/
theorem Program.map_sites : ∀ p : List Statement, Program.Genuine p →
    (Program.sites p).map Site.statement = Program.statements p
  | [], _ => rfl
  | s :: rest, h => by
    rw [Program.sites, Program.statements, ← Statement.map_sites s rest h.1,
      ← Program.map_sites rest h.2, List.map_append, List.map_map]
    rfl

end

theorem Program.mem_sites {p : List Statement} (site : Site p) : site ∈ Program.sites p := by
  induction site with
  | here s rest =>
    refine List.mem_append_left _ ?_
    cases s <;> exact List.mem_cons_self
  | later s site ih => exact List.mem_append_right _ (List.mem_map_of_mem ih)
  | consequence test alternative loc rest site ih =>
    refine List.mem_append_left _ (List.mem_cons_of_mem _ (List.mem_append_left _ ?_))
    exact List.mem_map_of_mem ih
  | alternative test body loc rest site ih =>
    refine List.mem_append_left _ (List.mem_cons_of_mem _ (List.mem_append_right _ ?_))
    exact List.mem_map_of_mem ih
  | repeated test loc rest site ih =>
    refine List.mem_append_left _ (List.mem_cons_of_mem _ ?_)
    exact List.mem_map_of_mem ih

namespace Machine

/-- A number that depends on a quantity as a weighted sum of its values does. -/
def Linear (total : (Machine → Nat) → Nat) : Prop :=
  ∀ (a : Nat) (q r : Machine → Nat), total (fun m => a * q m + r m) = a * total q + total r

theorem Linear.add {total : (Machine → Nat) → Nat} (h : Linear total) {q r : Machine → Nat} :
    total (fun m => q m + r m) = total q + total r := by
  have hsum := h 1 q r
  simpa only [Nat.one_mul] using hsum

variable {part : Machine → (Machine → Nat) → Nat}

theorem Linear.of_value (m : Machine) : Linear fun q => q m := fun _ _ _ => rfl

theorem Linear.zero {total : (Machine → Nat) → Nat} (h : Linear total) :
    total (fun _ => 0) = 0 := by
  have htwice : total (fun _ => 0) = 1 * total (fun _ => 0) + total fun _ => 0 :=
    h 1 (fun _ => 0) fun _ => 0
  omega

theorem Linear.of_onward (h : ∀ m, Linear (part m)) (step : Step) :
    Linear fun q => step.onward fun m => part m q := by
  obtain ⟨_ | halt, after⟩ := step
  · exact h after
  · exact fun _ _ _ => rfl

theorem Linear.of_inside (h : ∀ m, Linear (part m)) (m : Machine) (frame : Frame) :
    Linear fun q => m.inside frame fun m => part m q := by
  intro a q r
  unfold inside
  split
  · rfl
  · exact h (m.enter frame) a q r

theorem Linear.of_whenever (h : ∀ m, Linear (part m)) (m : Machine) (test : Condition)
    (outcome : Bool) : Linear fun q => m.whenever test outcome fun m => part m q := by
  intro a q r
  unfold whenever
  split
  · exact h m a q r
  · rfl

theorem Linear.of_overRounds (test : Condition) (body : List Statement) (rounds : Nat)
    (m : Machine) : Linear fun q => m.overRounds test body q rounds := by
  induction rounds generalizing m with
  | zero => exact fun _ _ _ => rfl
  | succ rounds ih =>
    refine Linear.of_whenever (fun m a q r => ?_) m test true
    have hrest := Linear.of_onward ih (Program.exec body m) a q r
    dsimp only at hrest ⊢
    rw [hrest]
    ring

end Machine

namespace Site

variable {p : List Statement}

/-- The visits of some places, each with the weight of its statement. -/
def total (sites : List (Site p)) (weight : Statement → Nat) (m : Machine) : Nat :=
  (sites.map fun site => weight site.statement * site.visits m).sum

theorem total_cons (site : Site p) (sites : List (Site p)) (weight : Statement → Nat)
    (m : Machine) : total (site :: sites) weight m =
      weight site.statement * site.visits m + total sites weight m := by
  unfold total
  rw [List.map_cons, List.sum_cons]

theorem total_append (sites more : List (Site p)) (weight : Statement → Nat) (m : Machine) :
    total (sites ++ more) weight m = total sites weight m + total more weight m := by
  unfold total
  rw [List.map_append, List.sum_append]

/-- Visits inside a block, seen from the block around it. -/
theorem total_map {block : List Statement} (outward : Site block → Site p)
    (outside : Machine → (Machine → Nat) → Nat)
    (hstatement : ∀ site, (outward site).statement = site.statement)
    (linear : ∀ m, Machine.Linear (outside m))
    (hvisits : ∀ site m, (outward site).visits m = outside m site.visits)
    (sites : List (Site block)) (weight : Statement → Nat) (m : Machine) :
    total (sites.map outward) weight m = outside m (total sites weight) := by
  induction sites with
  | nil => exact (linear m).zero.symm
  | cons site sites ih =>
    have hcons : total (site :: sites) weight =
        fun m => weight site.statement * site.visits m + total sites weight m :=
      funext (total_cons site sites weight)
    rw [List.map_cons, total_cons, hcons, linear m, ih, hstatement, hvisits]

/-- The visits after the first statement of a block. -/
theorem total_later (s : Statement) {rest : List Statement} (sites : List (Site rest))
    (weight : Statement → Nat) (m : Machine) :
    total (sites.map (.later s)) weight m = (s.exec m).onward (total sites weight) :=
  total_map (.later s) (fun m => (s.exec m).onward) (fun _ => rfl)
    (fun m => .of_onward .of_value (s.exec m)) (fun _ _ => rfl) sites weight m

/-- The visits in the blocks of a conditional. -/
theorem total_choice {test : Condition} {body alternative : List Statement} {loc : Position}
    {rest : List Statement} (sites : List (Site body)) (others : List (Site alternative))
    (weight : Statement → Nat) (m : Machine) :
    total (sites.map (.consequence test alternative loc rest) ++
        others.map (.alternative test body loc rest)) weight m =
      m.inside ⟨.conditional, loc⟩ fun m =>
        m.whenever test true (total sites weight) + m.whenever test false (total others weight) := by
  let inBlock (outcome : Bool) (m : Machine) (q : Machine → Nat) : Nat :=
    m.inside ⟨.conditional, loc⟩ fun m => m.whenever test outcome q
  have linear (outcome : Bool) (m : Machine) : Machine.Linear (inBlock outcome m) :=
    .of_inside (fun m => .of_whenever .of_value m test outcome) m _
  rw [total_append,
    total_map (.consequence test alternative loc rest) (inBlock true) (fun _ => rfl) (linear true)
      (fun _ _ => rfl),
    total_map (.alternative test body loc rest) (inBlock false) (fun _ => rfl) (linear false)
      (fun _ _ => rfl)]
  exact (Machine.Linear.of_inside .of_value m _).add.symm

/-- The visits in the rounds of a loop. -/
theorem total_repeated {test : Condition} {body : List Statement} {loc : Position}
    {rest : List Statement} (sites : List (Site body)) (weight : Statement → Nat) (m : Machine) :
    total (sites.map (.repeated test loc rest)) weight m =
      m.inside ⟨.loop, loc⟩ fun m => m.overRounds test body (total sites weight) m.cap.count :=
  total_map (.repeated test loc rest)
    (fun m q => m.inside ⟨.loop, loc⟩ fun m => m.overRounds test body q m.cap.count)
    (fun _ => rfl) (fun m => .of_inside (fun m => .of_overRounds test body m.cap.count m) m _)
    (fun _ _ => rfl) sites weight m

end Site

section

variable {which : Frame → Bool} {m : Machine}

/-- How many of the statements that were begun have a frame of the given sort. -/
def Machine.begun (m : Machine) (which : Frame → Bool) : Nat := m.entered.countP which

/-- One for the statements whose frame is of the given sort. -/
def Statement.weight (which : Frame → Bool) (s : Statement) : Nat :=
  if which s.frame then 1 else 0

theorem Machine.begun_enter (m : Machine) (frame : Frame) :
    (m.enter frame).begun which = m.begun which + if which frame then 1 else 0 :=
  Array.countP_push

theorem Step.begun_andThen {step : Step} {next : Machine → Step} {quantity : Machine → Nat}
    (h : ∀ m, (next m).2.begun which = m.begun which + quantity m) :
    (step.andThen next).2.begun which = step.2.begun which + step.onward quantity := by
  obtain ⟨_ | halt, after⟩ := step
  · exact h after
  · rfl

theorem Machine.begun_within {frame : Frame} {run : Machine → Step} {quantity : Machine → Nat}
    (h : ∀ m, (run m).2.begun which = m.begun which + quantity m) (m : Machine) :
    (m.within frame run).2.begun which = m.begun which +
      ((if which frame then 1 else 0) * (m.inside frame fun _ => 1) +
        m.inside frame quantity) := by
  unfold Machine.inside
  by_cases hline : frame.loc.line ∈ m.breakpoints
  · rw [within_of_mem hline, if_pos hline, if_pos hline]
    rfl
  · rw [within_of_not_mem hline, if_neg hline, if_neg hline]
    have hrun := h (m.enter frame)
    rw [begun_enter] at hrun
    rw [Nat.mul_one, ← Nat.add_assoc]
    exact hrun

/-- A statement without blocks begins itself and nothing else. -/
theorem Machine.begun_plain {frame : Frame} {run : Machine → Step}
    (h : ∀ m, (run m).2.begun which = m.begun which) (m : Machine) :
    (m.within frame run).2.begun which =
      m.begun which + (if which frame then 1 else 0) * m.inside frame fun _ => 1 := by
  have hnothing : m.inside frame (fun _ => 0) = 0 := 
    (Linear.of_inside .of_value m frame).zero
  have hwithin : (m.within frame run).2.begun which = m.begun which +
      ((if which frame then 1 else 0) * (m.inside frame fun _ => 1) +
        m.inside frame fun _ => 0) := begun_within h m
  rwa [hnothing] at hwithin

theorem Machine.begun_evaluate {α : Type} {result : Except Fault α} {loc : Position}
    {next : α → Step} (h : ∀ x, (next x).2.begun which = m.begun which) :
    (m.evaluate result loc next).2.begun which = m.begun which := by
  cases result with
  | error cause => rfl
  | ok x => exact h x

/-- What a loop begins is what its rounds begin. -/
theorem Machine.begun_rounds (test : Condition) {body : List Statement} (loc : Position)
    {quantity : Machine → Nat}
    (h : ∀ m, (Program.exec body m).2.begun which = m.begun which + quantity m) (rounds : Nat)
    (m : Machine) :
    (repeatWhile (fun m => m.environment.test test) (Program.exec body) loc rounds m).2.begun which =
      m.begun which + m.overRounds test body quantity rounds := by
  induction rounds generalizing m with
  | zero =>
    rw [repeatWhile, overRounds]
    refine begun_evaluate fun holds => ?_
    cases holds <;> rfl
  | succ rounds ih =>
    rw [overRounds]
    unfold whenever
    by_cases holds : m.environment.test test = .ok true
    · rw [repeatWhile_succ_of_holds holds, Step.begun_andThen ih, h m, if_pos holds,
        Nat.add_assoc]
    · rw [if_neg holds, repeatWhile_succ]
      cases htest : m.environment.test test with
      | error cause => rfl
      | ok outcome =>
        cases outcome with
        | false => rfl
        | true => exact absurd htest holds

/-- The choice of a conditional, one of whose blocks is run. -/
theorem Machine.begun_choice (test : Condition) {body alternative : List Statement}
    (loc : Position) {quantity quantity' : Machine → Nat}
    (h : ∀ m, (Program.exec body m).2.begun which = m.begun which + quantity m)
    (h' : ∀ m, (Program.exec alternative m).2.begun which = m.begun which + quantity' m)
    (m : Machine) :
    (m.evaluate (m.environment.test test) loc fun holds =>
      if holds then Program.exec body m else Program.exec alternative m).2.begun which =
      m.begun which + (m.whenever test true quantity + m.whenever test false quantity') := by
  unfold whenever
  cases htest : m.environment.test test with
  | error cause => rfl
  | ok holds =>
    cases holds with
    | false =>
      change (Program.exec alternative m).2.begun which = m.begun which + (0 + quantity' m)
      rw [h', Nat.zero_add]
    | true => exact h m

end

mutual

theorem Statement.begun_exec (which : Frame → Bool) : ∀ (s : Statement) (rest : List Statement),
    s.Genuine → ∀ m, (s.exec m).2.begun which =
      m.begun which + Site.total (s.sites rest) (Statement.weight which) m
  | .declaration name value loc, rest, _, m => by
    rw [Statement.exec, Machine.begun_plain fun m => Machine.begun_evaluate fun _ => rfl]
    rfl
  | .printText contents loc, rest, _, m => by
    rw [Statement.exec, Machine.begun_plain fun m => rfl]
    rfl
  | .printValue value loc, rest, _, m => by
    rw [Statement.exec, Machine.begun_plain fun m => Machine.begun_evaluate fun _ => rfl]
    rfl
  | .conditional test body alternative loc, rest, h, m => by
    have hinside := Machine.begun_choice test loc
      (Program.begun_exec which body h.1) (Program.begun_exec which alternative h.2)
    rw [Statement.exec, Machine.begun_within hinside, Statement.sites, Site.total_cons,
      Site.total_choice]
    rfl
  | .loop test body loc, rest, h, m => by
    have hinside (m : Machine) := Machine.begun_rounds test loc
      (Program.begun_exec which body h) m.cap.count m
    rw [Statement.exec, Machine.begun_within hinside, Statement.sites, Site.total_cons,
      Site.total_repeated]
    rfl
  | .foreign .., _, h, _ | .absent _, _, h, _ => h.elim

/-- A run begins the statements at the places that it visits. -/
theorem Program.begun_exec (which : Frame → Bool) : ∀ p : List Statement, Program.Genuine p →
    ∀ m, (Program.exec p m).2.begun which =
      m.begun which + Site.total (Program.sites p) (Statement.weight which) m
  | [], _, m => by
    rw [Program.exec_nil]
    rfl
  | s :: rest, h, m => by
    have hs := Statement.begun_exec which s rest h.1 m
    have hrest := Program.begun_exec which rest h.2
    rw [Program.exec_cons, Step.begun_andThen hrest, hs, Program.sites, Site.total_append,
      Site.total_later, Nat.add_assoc]

end

end Crafter
