import Crafter.Program.Statement

/-! The statements inside a statement, at any depth. -/
namespace Crafter

/-- The statements that stand directly in the blocks of a statement. Blocks of
nodes of other names are never executed and do not count. -/
def Statement.inside : Statement → List Statement
  | .conditional _ body alternative _ => body ++ alternative
  | .loop _ body _ => body
  | .declaration .. | .printText .. | .printValue .. | .foreign .. | .absent _ => []

namespace Program

theorem statements_append (p q : List Statement) :
    statements (p ++ q) = statements p ++ statements q := by
  induction p with
  | nil => rw [List.nil_append, statements, List.nil_append]
  | cons s p ih => rw [List.cons_append, statements, statements, ih, List.append_assoc]

theorem mem_withNested {s t : Statement} (h : t = s ∨ t ∈ statements s.inside) :
    t ∈ s.withNested := by
  cases s with
  | conditional test body alternative loc =>
    rw [Statement.withNested, ← statements_append]
    exact List.mem_cons.mpr h
  | loop test body loc =>
    rw [Statement.withNested]
    exact List.mem_cons.mpr h
  | foreign name body loc =>
    rcases h with rfl | h
    · rw [Statement.withNested]
      exact List.mem_cons_self
    · cases h
  | declaration | printText | printValue | absent =>
    rcases h with rfl | h
    · exact List.mem_singleton.mpr rfl
    · cases h

theorem mem_statements_of_withNested {p : List Statement} {s t : Statement} (hs : s ∈ p)
    (ht : t ∈ s.withNested) : t ∈ statements p := by
  induction p with
  | nil => cases hs
  | cons u p ih =>
    rw [statements]
    rcases List.mem_cons.mp hs with rfl | hs
    · exact List.mem_append_left _ ht
    · exact List.mem_append_right _ (ih hs)

theorem self_mem_withNested (s : Statement) : s ∈ s.withNested :=
  mem_withNested (Or.inl rfl)

end Program

end Crafter
