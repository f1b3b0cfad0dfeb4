import Crafter.Proofs.Agreement
import Crafter.Proofs.Legible
import Crafter.Proofs.Located
import Crafter.Proofs.Visits
import Mathlib.Algebra.Order.BigOperators.Group.List

/-! How much a run can do. The cap on the rounds of each loop is all that holds a run
back, and it is enough: a statement inside `d` loops is begun at most `cap ^ d` times,
which bounds the lines that a run prints and the notices that it leaves. -/
namespace Crafter

namespace Machine

/-- The frames of one kind. -/
def isOf (kind : StatementKind) (frame : Frame) : Bool := frame.kind = kind

/-- A size of machines that only statements of one kind add to, and each of them no more
than one. -/
structure Sizes (kind : StatementKind) (size : Machine → Nat) : Prop where
  enter : ∀ m frame, size (m.enter frame) = size m
  leave : ∀ m, size m.leave = size m
  bind : ∀ m name x, size (m.bind name x) = size m
  print : ∀ m line, size (m.print line) ≤ size m + if .print = kind then 1 else 0
  cutOff : ∀ m loc, size (m.cutOff loc) ≤ size m + if .loop = kind then 1 else 0

/-- The size has grown by no more than the number of statements of the kind that were
begun, and maybe some more that is owed to the statement around. -/
def Covered (kind : StatementKind) (size : Machine → Nat) (owed : Nat) (m : Machine)
    (step : Step) : Prop :=
  size step.2 + m.begun (isOf kind) ≤ size m + step.2.begun (isOf kind) + owed

variable {kind : StatementKind} {size : Machine → Nat} {m : Machine} {owed : Nat}

theorem covered_same (halt : Option Halt) (m : Machine) (owed : Nat) :
    Covered kind size owed m (halt, m) :=
  Nat.le_add_right _ owed

theorem covered_evaluate {α : Type} {result : Except Fault α} {loc : Position} {next : α → Step}
    (h : ∀ x, Covered kind size owed m (next x)) :
    Covered kind size owed m (m.evaluate result loc next) := by
  cases result with
  | error cause => exact covered_same _ m owed
  | ok x => exact h x

theorem covered_andThen {step : Step} {next : Machine → Step}
    (h : Covered kind size 0 m step) (hnext : ∀ m, Covered kind size owed m (next m)) :
    Covered kind size owed m (step.andThen next) := by
  obtain ⟨_ | halt, after⟩ := step
  · have hafter := hnext after
    rw [Step.andThen_none]
    unfold Covered at *
    dsimp only at h
    omega
  · rw [Step.andThen_some]
    unfold Covered at *
    omega

/-- What a statement adds itself is covered by its having been begun. -/
theorem covered_within (sizes : Sizes kind size) {frame : Frame} {run : Machine → Step}
    (h : ∀ m, Covered kind size (if frame.kind = kind then 1 else 0) m (run m)) (m : Machine) :
    Covered kind size 0 m (m.within frame run) := by
  by_cases hline : frame.loc.line ∈ m.breakpoints
  · rw [within_of_mem hline]
    exact covered_same _ m 0
  · rw [within_of_not_mem hline]
    have hrun := h (m.enter frame)
    have hleave := sizes.leave (run (m.enter frame)).2
    unfold Covered at hrun ⊢
    rw [sizes.enter, begun_enter] at hrun
    change size (run (m.enter frame)).2.leave + _ ≤ _ + (run (m.enter frame)).2.begun _ + 0
    unfold isOf at hrun ⊢
    by_cases hkind : frame.kind = kind
    · simp only [hkind, decide_true, if_true] at hrun
      omega
    · simp only [hkind, decide_false, if_false] at hrun
      have hfalse : (if false = true then 1 else 0) = 0 := rfl
      omega

theorem covered_repeatWhile (sizes : Sizes kind size) {test : Machine → Except Fault Bool}
    {body : Machine → Step} {loc : Position} (h : ∀ m, Covered kind size 0 m (body m))
    (rounds : Nat) (m : Machine) :
    Covered kind size (if .loop = kind then 1 else 0) m
      (repeatWhile test body loc rounds m) := by
  induction rounds generalizing m with
  | zero =>
    refine covered_evaluate fun holds => ?_
    cases holds
    · exact covered_same none m _
    · have hsize := sizes.cutOff m loc
      unfold Covered
      change size (m.cutOff loc) + _ ≤ _ + m.begun _ + _
      omega
  | succ rounds ih =>
    rw [repeatWhile_succ]
    refine covered_evaluate fun holds => ?_
    cases holds
    · exact covered_same none m _
    · exact covered_andThen (h m) ih

theorem covered_print (sizes : Sizes kind size) (m : Machine) (line : String) :
    Covered kind size (if .print = kind then 1 else 0) m (none, m.print line) := by
  have hsize := sizes.print m line
  unfold Covered
  change size (m.print line) + _ ≤ _ + m.begun _ + _
  omega

theorem Covered.weaken {step : Step} (h : Covered kind size 0 m step) :
    Covered kind size owed m step := Nat.le_trans h (Nat.le_add_right _ owed)

end Machine

section

variable {kind : StatementKind} {size : Machine → Nat}

open Machine

mutual

theorem Statement.exec_covered (sizes : Sizes kind size) : ∀ (s : Statement) (m : Machine),
    Covered kind size 0 m (s.exec m)
  | .declaration name value loc, m => by
    rw [Statement.exec]
    refine covered_within sizes (fun m => covered_evaluate fun x => ?_) m
    have hsize := sizes.bind m name x
    unfold Covered
    change size (m.bind name x) + _ ≤ _ + m.begun _ + _
    omega
  | .printText contents loc, m => by
    rw [Statement.exec]
    exact covered_within sizes (fun m => covered_print sizes m contents) m
  | .printValue value loc, m => by
    rw [Statement.exec]
    exact covered_within sizes (fun m => covered_evaluate fun x => covered_print sizes m _) m
  | .conditional test body alternative loc, m => by
    rw [Statement.exec]
    refine covered_within sizes (fun m => covered_evaluate fun holds => ?_) m
    cases holds
    · exact (Program.exec_covered sizes alternative m).weaken
    · exact (Program.exec_covered sizes body m).weaken
  | .loop test body loc, m => by
    rw [Statement.exec]
    exact covered_within sizes
      (fun m => covered_repeatWhile sizes (Program.exec_covered sizes body) m.cap.count m) m
  | .foreign name _ loc, m => by
    rw [Statement.exec]
    exact covered_within sizes (fun m => covered_same _ m _) m
  | .absent part, m => by
    rw [Statement.exec]
    exact covered_same _ m 0

theorem Program.exec_covered (sizes : Sizes kind size) : ∀ (p : List Statement) (m : Machine),
    Covered kind size 0 m (Program.exec p m)
  | [], m => by
    rw [Program.exec_nil]
    exact covered_same none m 0
  | s :: rest, m => by
    rw [Program.exec_cons]
    exact covered_andThen (Statement.exec_covered sizes s m) (Program.exec_covered sizes rest)

end

end

namespace Machine

/-- Only prints add to the output. -/
theorem sizes_output : Sizes .print fun m => m.output.size where
  enter _ _ := rfl
  leave _ := rfl
  bind _ _ _ := rfl
  print _ _ := Nat.le_of_eq (Array.size_push _)
  cutOff m _ := Nat.le_add_right m.output.size _

/-- Only loops leave notices. -/
theorem sizes_notices : Sizes .loop fun m => m.notices.size where
  enter _ _ := rfl
  leave _ := rfl
  bind _ _ _ := rfl
  print m _ := Nat.le_add_right m.notices.size _
  cutOff _ _ := Nat.le_of_eq (Array.size_push _)

end Machine

namespace Site

variable {p : List Statement}

/-- The weighted visits are those of the places with a frame of the sort. -/
theorem total_weight (which : Frame → Bool) (sites : List (Site p)) (m : Machine) :
    total sites (Statement.weight which) m =
      ((sites.filter fun site => which site.statement.frame).map (·.visits m)).sum := by
  induction sites with
  | nil => rfl
  | cons site sites ih =>
    rw [total_cons, ih, Statement.weight, List.filter_cons]
    by_cases hframe : which site.statement.frame
    · rw [if_pos hframe, if_pos hframe, Nat.one_mul, List.map_cons, List.sum_cons]
    · rw [if_neg hframe, if_neg hframe, Nat.zero_mul, Nat.zero_add]

end Site

/-- An element is told from all others of a list by what nothing else in it is mapped to. -/
theorem filter_eq_singleton {α β : Type} [DecidableEq β] {f : α → β} {xs : List α}
    (h : (xs.map f).Nodup) {x : α} (hx : x ∈ xs) : xs.filter (fun y => f y = f x) = [x] := by
  induction xs with
  | nil => cases hx
  | cons y xs ih =>
    obtain ⟨hy, hxs⟩ := List.nodup_cons.mp h
    rcases List.mem_cons.mp hx with rfl | hx
    · have hnone : xs.filter (fun y => f y = f x) = [] := by
        refine List.filter_eq_nil_iff.mpr fun z hz heq => hy ?_
        rw [← of_decide_eq_true heq]
        exact List.mem_map_of_mem hz
      rw [List.filter_cons_of_pos (by simp), hnone]
    · have hne : ¬ f y = f x := fun heq => hy (heq ▸ List.mem_map_of_mem hx)
      rw [List.filter_cons_of_neg (by simpa using hne)]
      exact ih hxs hx

namespace Program

variable {p : Program} {tokens : List Token}

/-- How often the statements of one kind can be begun, all together. -/
def ceiling (p : Program) (kind : StatementKind) (cap : Cap) : Nat :=
  (((sites p).filter fun site => site.statement.kind = kind).map
    fun site => cap.count ^ site.loops).sum

theorem begun_run (h : Genuine p) (breakpoints : Breakpoints) (cap : Cap)
    (which : Frame → Bool) : (exec p (.start breakpoints cap)).2.begun which =
      (((sites p).filter fun site => which site.statement.frame).map
        (·.visits (.start breakpoints cap))).sum := by
  have hbegun := begun_exec which p h (.start breakpoints cap)
  rw [Site.total_weight] at hbegun
  rw [hbegun]
  exact Nat.zero_add _

/-- A size that statements of one kind add to stays below what the cap allows them. -/
theorem size_le_ceiling (h : Genuine p) {kind : StatementKind} {size : Machine → Nat}
    (sizes : Machine.Sizes kind size) (breakpoints : Breakpoints) (cap : Cap)
    (hstart : size (.start breakpoints cap) = 0) :
    size (exec p (.start breakpoints cap)).2 ≤ p.ceiling kind cap := by
  have hcovered := exec_covered sizes p (.start breakpoints cap)
  unfold Machine.Covered at hcovered
  rw [hstart, begun_run h] at hcovered
  have hvisits : (((sites p).filter fun site => Machine.isOf kind site.statement.frame).map
      (·.visits (.start breakpoints cap))).sum ≤ p.ceiling kind cap :=
    List.sum_le_sum fun site _ => site.visits_le (.start breakpoints cap)
  omega

/-- In the tree of a source a frame belongs to one place only. -/
theorem filter_frame_eq {file source : String} (hscan : Source.scan file source = .ok tokens)
    (h : ofTokens tokens = .ok p) (site : Site p) :
    (sites p).filter (fun other => other.statement.frame == site.statement.frame) = [site] := by
  have hlocs : ((statements p).map Statement.loc).Nodup :=
    Position.nodup_of_pairwise_before
      (List.pairwise_map.mpr (legible_of_scan hscan h).places)
  rw [← map_sites p (genuine_of_ofTokens h), List.map_map] at hlocs
  have hframes : ((sites p).map fun site => site.statement.frame).Nodup := by
    apply List.Nodup.of_map Frame.loc
    rw [List.map_map]
    exact hlocs
  exact filter_eq_singleton hframes (mem_sites site)

/-- A statement inside `d` loops is begun at most `cap ^ d` times. So a run prints at most
as many lines, and leaves at most as many notices, as that allows for its prints and for
its loops. The frames that a run enters are those of its visits; and in the tree of a
source, where no two statements have one frame, the visits of a statement are the entries
of its frame. -/
theorem run_volume (h : ofTokens tokens = .ok p) (breakpoints : Breakpoints) (cap : Cap) :
    p.run? breakpoints cap.count = .ok (p.run breakpoints cap) ∧
    (sites p).map Site.statement = statements p ∧
    (∀ site : Site p, site.visits (.start breakpoints cap) ≤ cap.count ^ site.loops) ∧
    (∀ frame, (p.run breakpoints cap).entered.count frame =
      (((sites p).filter (·.statement.frame == frame)).map
        (·.visits (.start breakpoints cap))).sum) ∧
    (∀ file source, Source.scan file source = .ok tokens → ∀ site : Site p,
      (p.run breakpoints cap).entered.count site.statement.frame =
        site.visits (.start breakpoints cap)) ∧
    (p.run breakpoints cap).lines.length ≤ p.ceiling .print cap ∧
    (p.run breakpoints cap).notices.length ≤ p.ceiling .loop cap := by
  have hgenuine := genuine_of_ofTokens h
  have hentered (frame : Frame) : (p.run breakpoints cap).entered.count frame =
      (((sites p).filter (·.statement.frame == frame)).map
        (·.visits (.start breakpoints cap))).sum := by
    rw [← begun_run hgenuine breakpoints cap (· == frame)]
    exact Array.countP_toList
  refine ⟨run?_count hgenuine breakpoints cap, map_sites p hgenuine,
    fun site => site.visits_le (.start breakpoints cap), hentered, ?_, ?_, ?_⟩
  · intro file source hscan site
    rw [hentered, filter_frame_eq hscan h site]
    exact Nat.add_zero _
  · exact size_le_ceiling hgenuine Machine.sizes_output breakpoints cap rfl
  · exact size_le_ceiling hgenuine Machine.sizes_notices breakpoints cap rfl

end Program

/-! Two endless loops, one inside the other. Under a cap of two rounds the print inside
both is begun four times, and every bound is reached. -/
namespace Sample

def nestedSource : String :=
  Text.joinLines ["maano i = 0", "jabtak i < 9 \x7b", "  jabtak i < 9 \x7b", "    likho i",
    "  \x7d", "\x7d"]

def nested : List Token × Program := Program.ofSourceD Source.unnamed nestedSource

theorem ofSource_nested : Program.ofSource Source.unnamed nestedSource = .ok nested :=
  Program.ofSource_eq_of_isOk (by decide +kernel)

theorem ofTokens_nested : Program.ofTokens nested.1 = .ok nested.2 :=
  ((Program.ofSource_eq_ok_iff _ _ _ _).mp ofSource_nested).2

end Sample

theorem Program.run_volume_sample :
    ofTokens Sample.nested.1 = .ok Sample.nested.2 ∧
    ((sites Sample.nested.2).map fun site =>
        (site.loops, site.visits (.start .empty Sample.cap))) = [(0, 1), (0, 1), (1, 2), (2, 4)] ∧
    Sample.nested.2.ceiling .print Sample.cap = 4 ∧
    (Sample.nested.2.run .empty Sample.cap).lines = ["0", "0", "0", "0"] ∧
    Sample.nested.2.ceiling .loop Sample.cap = 3 ∧
    (Sample.nested.2.run .empty Sample.cap).notices.length = 3 ∧
    (∀ site : Site Sample.nested.2,
      site.visits (.start .empty Sample.cap) ≤ Sample.cap.count ^ site.loops) ∧
    (Sample.nested.2.run .empty Sample.cap).lines.length ≤
      Sample.nested.2.ceiling .print Sample.cap ∧
    (Sample.nested.2.run .empty Sample.cap).notices.length ≤
      Sample.nested.2.ceiling .loop Sample.cap :=
  have hvolume := run_volume Sample.ofTokens_nested .empty Sample.cap
  ⟨Sample.ofTokens_nested, by decide +kernel, by decide +kernel, by decide +kernel,
    by decide +kernel, by decide +kernel, hvolume.2.2.1, hvolume.2.2.2.2.2.1,
    hvolume.2.2.2.2.2.2⟩

end Crafter
