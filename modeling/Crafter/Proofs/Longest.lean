import Mathlib.Data.List.TakeWhile

/-! A list cut where a test first fails: the stretch before the cut is the
longest one at the front of the list on which the test holds. -/
namespace Crafter

variable {α : Type} {p : α → Bool} {xs ys : List α}

theorem takeWhile_append_of_stop (hx : ∀ x ∈ xs, p x = true) (hy : ∀ y ∈ ys.head?, p y = false) :
    (xs ++ ys).takeWhile p = xs := by
  rw [List.takeWhile_append_of_pos hx]
  cases ys with
  | nil => rw [List.takeWhile_nil, List.append_nil]
  | cons y ys =>
    rw [List.takeWhile_cons_of_neg (by rw [hy y rfl]; exact Bool.false_ne_true), List.append_nil]

theorem dropWhile_append_of_stop (hx : ∀ x ∈ xs, p x = true) (hy : ∀ y ∈ ys.head?, p y = false) :
    (xs ++ ys).dropWhile p = ys := by
  rw [List.dropWhile_append_of_pos hx]
  cases ys with
  | nil => rfl
  | cons y ys => rw [List.dropWhile_cons_of_neg (by rw [hy y rfl]; exact Bool.false_ne_true)]

/-- Two lists cut at the same place are equal on both sides of the cut. -/
theorem append_inj_of_stop {xs' ys' : List α} (hx : ∀ x ∈ xs, p x = true)
    (hy : ∀ y ∈ ys.head?, p y = false) (hx' : ∀ x ∈ xs', p x = true)
    (hy' : ∀ y ∈ ys'.head?, p y = false) (h : xs ++ ys = xs' ++ ys') : xs = xs' ∧ ys = ys' := by
  have htake := congrArg (List.takeWhile p) h
  have hdrop := congrArg (List.dropWhile p) h
  rw [takeWhile_append_of_stop hx hy, takeWhile_append_of_stop hx' hy'] at htake
  rw [dropWhile_append_of_stop hx hy, dropWhile_append_of_stop hx' hy'] at hdrop
  exact ⟨htake, hdrop⟩

theorem forall_mem_cons_takeWhile {x : α} (hx : p x = true) :
    ∀ y ∈ x :: xs.takeWhile p, p y = true := by
  intro y hy
  rcases List.mem_cons.mp hy with rfl | hy
  · exact hx
  · exact List.mem_takeWhile_imp hy

theorem head?_dropWhile_fails {y : α} (hy : y ∈ (xs.dropWhile p).head?) : p y = false := by
  have h := List.head?_dropWhile_not p xs
  rw [Option.mem_def.mp hy] at h
  simpa using h

end Crafter
