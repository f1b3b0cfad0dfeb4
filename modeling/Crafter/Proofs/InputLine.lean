import Crafter.Session
import Mathlib.Data.List.TakeWhile

/-! Lines of input as commands: which command a line gives, and with which
argument, can be read off the line itself. -/
namespace Crafter

namespace Line

/-- A line of input without the blanks at either end. -/
def trimmed (line : String) : String := String.ofList (Text.trim line.toList)

/-- The line gives a command, known or not. -/
def IsCommand (line : String) : Prop := (trimmed line).toList.head? = some ':'

/-- The line gives the command of that name, alone or with an argument. -/
def Gives (name line : String) : Prop :=
  trimmed line = name ∨ name.toList ++ [' '] <+: (trimmed line).toList

instance : DecidablePred IsCommand := fun line =>
  inferInstanceAs (Decidable ((trimmed line).toList.head? = some ':'))

instance (name : String) : DecidablePred (Gives name) := fun line =>
  inferInstanceAs (Decidable (trimmed line = name ∨ name.toList ++ [' '] <+: (trimmed line).toList))

/-- The number that a line gives to the command `:break`, if it is one. -/
def breakpoint? (line : String) : Option Int :=
  if Gives ":break" line then
    Text.intOfNumeral? (String.ofList ((trimmed line).toList.drop ":break ".toList.length))
  else none

end Line

open Line

namespace Command

/-- A word without blanks is what stands before the first blank exactly if it
is all there is or a blank follows it. -/
theorem takeWhile_eq_iff {word : List Char} (hword : ' ' ∉ word) (cs : List Char) :
    cs.takeWhile (· ≠ ' ') = word ↔ cs = word ∨ word ++ [' '] <+: cs := by
  have hkept : ∀ c ∈ word, decide (c ≠ ' ') = true := by
    intro c hc
    exact decide_eq_true fun he => hword (he ▸ hc)
  constructor
  · intro h
    have hsplit := List.takeWhile_append_dropWhile (p := (· ≠ ' ')) (l := cs)
    rw [h] at hsplit
    cases hrest : cs.dropWhile (· ≠ ' ') with
    | nil =>
      rw [hrest, List.append_nil] at hsplit
      exact Or.inl hsplit.symm
    | cons c rest =>
      have hblank : c = ' ' := by
        have hstop := List.head?_dropWhile_not (· ≠ ' ') cs
        rw [hrest] at hstop
        simpa using hstop
      rw [hrest, hblank] at hsplit
      exact Or.inr ⟨rest, by rw [← hsplit, List.append_assoc, List.singleton_append]⟩
  · rintro (rfl | ⟨rest, rfl⟩)
    · exact List.takeWhile_eq_self_iff.mpr hkept
    · rw [List.append_assoc, List.takeWhile_append_of_pos hkept, List.singleton_append,
        List.takeWhile_cons_of_neg (by decide), List.append_nil]

theorem split_name_iff {name : String} (hname : ' ' ∉ name.toList) (line : String) :
    (split (trimmed line)).1 = name ↔ Gives name line := by
  have hwords := takeWhile_eq_iff hname (trimmed line).toList
  rw [String.toList_inj] at hwords
  rw [Gives, ← hwords, ← String.toList_inj]
  exact Iff.of_eq (congrArg (· = name.toList) String.toList_ofList)

/-- The argument of a command is what stands behind its name and one blank. -/
theorem split_argument {name line : String} (h : (split line).1 = name) :
    (split line).2 = String.ofList (line.toList.drop (name.toList ++ [' ']).length) := by
  have hname : line.toList.takeWhile (· ≠ ' ') = name.toList := by
    rw [← h]
    exact String.toList_ofList.symm
  have hsplit := List.takeWhile_append_dropWhile (p := (· ≠ ' ')) (l := line.toList)
  rw [hname] at hsplit
  refine congrArg String.ofList ?_
  calc (line.toList.dropWhile (· ≠ ' ')).drop 1
      = (name.toList ++ line.toList.dropWhile (· ≠ ' ')).drop (name.toList.length + 1) :=
        (List.drop_length_add_append 1).symm
    _ = line.toList.drop (name.toList ++ [' ']).length := by
        rw [hsplit, List.length_append, List.length_singleton]

/-- Only two commands change what a session holds. -/
theorem ofLine_cases (line : String) :
    ((split line).1 = ":clear" ∧ ofLine line = .clear) ∨
    ((split line).1 = ":break" ∧ ofLine line = .toggleBreakpoint (split line).2) ∨
    ((split line).1 ≠ ":clear" ∧ (split line).1 ≠ ":break" ∧ ofLine line ≠ .clear ∧
      ∀ argument, ofLine line ≠ .toggleBreakpoint argument) := by
  unfold ofLine
  generalize split line = parts
  obtain ⟨name, argument⟩ := parts
  dsimp only
  split
  case h_2 => exact Or.inr (Or.inl ⟨rfl, rfl⟩)
  case h_8 => exact Or.inl ⟨rfl, rfl⟩
  case h_10 hbreak _ _ _ _ _ hclear _ => exact Or.inr (Or.inr ⟨hclear, hbreak, nofun, nofun⟩)
  all_goals exact Or.inr (Or.inr ⟨by decide, by decide, nofun, nofun⟩)

theorem ofLine_of_run {line : String} (h : (split line).1 = ":run") : ofLine line = .run := by
  unfold ofLine
  generalize split line = parts at h
  obtain ⟨name, argument⟩ := parts
  cases h
  rfl

end Command

/-- A line that gives one command gives no other. -/
theorem Line.gives_unique {name other line : String} (hname : ' ' ∉ name.toList)
    (hother : ' ' ∉ other.toList) (h : Gives name line) (h' : Gives other line) : name = other :=
  ((Command.split_name_iff hname line).mpr h).symm.trans
    ((Command.split_name_iff hother line).mpr h')

theorem Line.isCommand_of_gives {name line : String} (hname : name.toList.head? = some ':')
    (h : Gives name line) : IsCommand line := by
  rcases h with h | ⟨rest, hrest⟩
  · rw [IsCommand, h]
    exact hname
  · rw [IsCommand, ← hrest, List.append_assoc, List.head?_append, hname]
    rfl

end Crafter
