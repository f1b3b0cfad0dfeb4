import Crafter.Lint
import Crafter.Proofs.Law

/-! What a run never changes: every statement leaves the stack, the breakpoints
and the cap as it found them, whether or not it halts. To the output and to the
notices it only adds, and it gives values only to names that it declares. -/
namespace Crafter

namespace Machine

/-- The second machine has the stack, the breakpoints and the cap of the first. -/
structure Keeps (m after : Machine) : Prop where
  stack : after.stack = m.stack
  breakpoints : after.breakpoints = m.breakpoints
  cap : after.cap = m.cap

theorem Keeps.refl (m : Machine) : m.Keeps m := ⟨rfl, rfl, rfl⟩

theorem Keeps.trans {m n k : Machine} (h : m.Keeps n) (h' : n.Keeps k) : m.Keeps k :=
  ⟨h'.stack.trans h.stack, h'.breakpoints.trans h.breakpoints, h'.cap.trans h.cap⟩

/-- What runs inside a statement finds its frame on the stack and leaves it there,
so that the statement takes off the frame that it put on. -/
theorem keeps_leave {m after : Machine} {frame : Frame} (h : (m.enter frame).Keeps after) :
    m.Keeps after.leave := by
  have hstack : after.leave.stack = m.stack := congrArg List.tail h.stack
  exact ⟨hstack, h.breakpoints, h.cap⟩

theorem keeps_law : Step.Law fun m step => m.Keeps step.2 :=
  .of_relation Keeps.refl (fun _ _ _ => Keeps.trans) (fun _ _ _ => ⟨rfl, rfl, rfl⟩)
    (fun _ _ => ⟨rfl, rfl, rfl⟩) (fun _ _ => ⟨rfl, rfl, rfl⟩) (fun _ _ _ => keeps_leave)

/-- The second machine has printed and noted what the first has, and maybe more. -/
structure Grows (m after : Machine) : Prop where
  output : m.output.toList <+: after.output.toList
  notices : m.notices.toList <+: after.notices.toList
  limitReached : m.limitReached = true → after.limitReached = true

theorem Grows.refl (m : Machine) : m.Grows m :=
  ⟨List.prefix_rfl, List.prefix_rfl, id⟩

theorem Grows.trans {m n k : Machine} (h : m.Grows n) (h' : n.Grows k) : m.Grows k :=
  ⟨h.output.trans h'.output, h.notices.trans h'.notices, h'.limitReached ∘ h.limitReached⟩

theorem grows_print (m : Machine) (line : String) : m.Grows (m.print line) := by
  have houtput : (m.print line).output.toList = m.output.toList ++ [line] := Array.toList_push
  refine ⟨?_, List.prefix_rfl, id⟩
  rw [houtput]
  exact List.prefix_append _ _

theorem grows_cutOff (m : Machine) (loc : Position) : m.Grows (m.cutOff loc) := by
  have hnotices : (m.cutOff loc).notices.toList = m.notices.toList ++ [limitNotice m.cap loc] :=
    Array.toList_push
  refine ⟨List.prefix_rfl, ?_, fun _ => rfl⟩
  rw [hnotices]
  exact List.prefix_append _ _

theorem grows_law : Step.Law fun m step => m.Grows step.2 :=
  .of_relation Grows.refl (fun _ _ _ => Grows.trans)
    (fun _ _ _ => ⟨List.prefix_rfl, List.prefix_rfl, id⟩) grows_print grows_cutOff
    (fun _ _ _ h => ⟨h.output, h.notices, h.limitReached⟩)

end Machine

theorem Statement.exec_keeps (s : Statement) (m : Machine) : m.Keeps (s.exec m).2 :=
  Machine.keeps_law.of_statement s (Or.inr fun m _ => .refl m) m

theorem Program.exec_keeps (p : List Statement) (m : Machine) : m.Keeps (Program.exec p m).2 :=
  Machine.keeps_law.of_program p (Or.inr fun m _ => .refl m) m

theorem Statement.exec_grows (s : Statement) (m : Machine) : m.Grows (s.exec m).2 :=
  Machine.grows_law.of_statement s (Or.inr fun m _ => .refl m) m

theorem Program.exec_grows (p : List Statement) (m : Machine) : m.Grows (Program.exec p m).2 :=
  Machine.grows_law.of_program p (Or.inr fun m _ => .refl m) m

namespace Program

/-- Some statement of the block, at top level or inside, gives the name a value. -/
def Declares (block : List Statement) (name : String) : Prop :=
  ∃ s ∈ statements block, Lint.declaredName? s = some name

theorem frame_law {scope : List Statement} {name : String}
    (h : ∀ s ∈ scope, Lint.declaredName? s ≠ some name) :
    Step.LawOn scope fun m step => step.2.environment.get? name = m.environment.get? name where
  idle _ := rfl
  declare m other value loc x hs := by
    have hne : other ≠ name := fun heq => h _ hs (congrArg some heq)
    exact (m.environment.get?_insert other name x).trans (if_neg hne)
  print _ _ := rfl
  cutOff _ _ _ _ _ := rfl
  fault _ _ _ _ _ := rfl
  pause _ _ _ := rfl
  within _ _ _ _ h := h
  andThen _ _ _ h h' := h'.trans h

theorem exec_statement_frame {s : Statement} {name : String}
    (h : ∀ t ∈ s.withNested, Lint.declaredName? t ≠ some name) (m : Machine) :
    (s.exec m).2.environment.get? name = m.environment.get? name :=
  (frame_law h).of_statement s (List.Subset.refl _) (Or.inr fun _ _ => rfl) m

/-- A run leaves every variable as it is that no statement of the program gives a
value, however its loops and conditionals go. -/
theorem exec_frame {block : List Statement} {name : String} (h : ¬ Declares block name)
    (m : Machine) : (exec block m).2.environment.get? name = m.environment.get? name := by
  have hscope : ∀ s ∈ statements block, Lint.declaredName? s ≠ some name :=
    fun s hs heq => h ⟨s, hs, heq⟩
  exact (frame_law hscope).of_program block (List.Subset.refl _) (Or.inr fun _ _ => rfl) m

/-- A program goes on with its second part if the first one comes to its end. -/
theorem exec_append (p q : Program) (m : Machine) :
    exec (p ++ q) m = match exec p m with
      | (some halt, after) => (some halt, after)
      | (none, after) => exec q after := by
  induction p generalizing m with
  | nil => rw [List.nil_append, exec]
  | cons s p ih =>
    rw [List.cons_append, exec, exec]
    split
    · rfl
    · next after _ => exact ih after

end Program

end Crafter
