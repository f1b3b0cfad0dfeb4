/-! The lines on which a run is to pause. -/
namespace Crafter

/-- A set of lines, as an ascending list. -/
structure Breakpoints where
  lines : List Int
  ascending : lines.Pairwise (· < ·) := by decide

namespace Breakpoints

def empty : Breakpoints where
  lines := []

instance : Inhabited Breakpoints := ⟨empty⟩

instance : Membership Int Breakpoints where
  mem b line := line ∈ b.lines

instance (line : Int) (b : Breakpoints) : Decidable (line ∈ b) :=
  inferInstanceAs (Decidable (line ∈ b.lines))

def place (line : Int) : List Int → List Int
  | [] => [line]
  | l :: rest => if line < l then line :: l :: rest else l :: place line rest

theorem mem_place (line other : Int) (lines : List Int) :
    other ∈ place line lines ↔ other = line ∨ other ∈ lines := by
  induction lines with
  | nil => simp [place]
  | cons l rest ih =>
    by_cases h : line < l
    · simp [place, h]
    · simp only [place, h, if_false, List.mem_cons, ih]
      exact or_left_comm

theorem pairwise_place {line : Int} {lines : List Int} (h : lines.Pairwise (· < ·))
    (hn : line ∉ lines) : (place line lines).Pairwise (· < ·) := by
  induction lines with
  | nil => simp [place]
  | cons l rest ih =>
    obtain ⟨hl, hrest⟩ := List.pairwise_cons.mp h
    by_cases hlt : line < l
    · simp only [place, hlt, if_true]
      refine List.pairwise_cons.mpr ⟨?_, h⟩
      intro other ho
      rcases List.mem_cons.mp ho with rfl | ho
      · exact hlt
      · exact Int.lt_trans hlt (hl other ho)
    · simp only [place, hlt, if_false]
      refine List.pairwise_cons.mpr ⟨?_, ih hrest fun hm => hn (List.mem_cons_of_mem l hm)⟩
      intro other ho
      rcases (mem_place line other rest).mp ho with rfl | ho
      · have hne : other ≠ l := fun he => hn (he ▸ List.mem_cons_self)
        omega
      · exact hl other ho

/-- Adds a line that is not there, or takes away one that is. -/
def toggle (b : Breakpoints) (line : Int) : Breakpoints :=
  if h : line ∈ b.lines then ⟨b.lines.filter (· ≠ line), b.ascending.filter _⟩
  else ⟨place line b.lines, pairwise_place b.ascending h⟩

def insert (b : Breakpoints) (line : Int) : Breakpoints :=
  if line ∈ b then b else b.toggle line

def ofList (lines : List Int) : Breakpoints :=
  lines.foldl insert empty

/-- Toggling a line changes the membership of that line and of no other. -/
theorem mem_toggle (b : Breakpoints) (line other : Int) :
    other ∈ b.toggle line ↔ if other = line then line ∉ b else other ∈ b := by
  change other ∈ (b.toggle line).lines ↔ if other = line then line ∉ b.lines else other ∈ b.lines
  unfold toggle
  split
  · next h =>
    by_cases he : other = line <;> simp [he, h]
  · next h =>
    rw [mem_place]
    by_cases he : other = line <;> simp [he, h]

end Breakpoints

end Crafter
