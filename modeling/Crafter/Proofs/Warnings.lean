import Crafter.Program.Parse
import Crafter.Proofs.Kept
import Mathlib.Data.List.Basic

/-! When lint warns: a variable is reported as unused if a statement declares it
and none uses it, as undeclared if a statement uses it and none declares it, and
a loop is reported if its body gives its left operand no value. -/
namespace Crafter

/-- Some statement of the program has the name in its own expression or condition. -/
def Program.Uses (p : Program) (name : String) : Prop :=
  ∃ s ∈ statements p, name ∈ Lint.usedNames s

/-! Messages around a name. What stands before and after it tells the messages
apart, and the name can be read off the message. -/

theorem framed_injective (front back : String) {a b : String}
    (h : front ++ a ++ back = front ++ b ++ back) : a = b := by
  have hlists := congrArg String.toList h
  simp only [String.toList_append] at hlists
  exact String.toList_inj.mp (List.append_cancel_left (List.append_cancel_right hlists))

theorem framed_ne_of_front {front front' : String} (h : ¬ front.toList <+: front'.toList)
    (h' : ¬ front'.toList <+: front.toList) (a b : String) : front ++ a ≠ front' ++ b := by
  intro heq
  have hlists := congrArg String.toList heq
  simp only [String.toList_append] at hlists
  have hfront : front.toList <+: front'.toList ++ b.toList := hlists ▸ List.prefix_append _ _
  exact (List.prefix_or_prefix_of_prefix hfront (List.prefix_append _ _)).elim h h'

theorem framed_ne_of_back {back back' : String} (h : ¬ back.toList <:+ back'.toList)
    (h' : ¬ back'.toList <:+ back.toList) (a b : String) : a ++ back ≠ b ++ back' := by
  intro heq
  have hlists := congrArg String.toList heq
  simp only [String.toList_append] at hlists
  have hback : back.toList <:+ b.toList ++ back'.toList := hlists ▸ List.suffix_append _ _
  exact (List.suffix_or_suffix_of_suffix hback (List.suffix_append _ _)).elim h h'

namespace Lint

/-- Some warning about the program has the message. -/
def Reports (tokens : List Token) (p : Program) (message : String) : Prop :=
  ∃ d ∈ warnings tokens p, d.message = message

theorem any_foldl_firstOccurrences (seen occurrences : List (String × Position)) (name : String) :
    (occurrences.foldl
      (fun seen (name, loc) => if seen.any (·.1 == name) then seen else seen ++ [(name, loc)])
      seen).any (·.1 == name) = (seen ++ occurrences).any (·.1 == name) := by
  induction occurrences generalizing seen with
  | nil => rw [List.foldl_nil, List.append_nil]
  | cons occurrence rest ih =>
    obtain ⟨other, loc⟩ := occurrence
    rw [List.foldl_cons, ih]
    dsimp only
    by_cases hseen : seen.any (·.1 == other) = true
    · -- a name that occurs again was found before
      rw [if_pos hseen, List.any_append, List.any_append, List.any_cons]
      by_cases hname : other = name
      · subst hname
        rw [hseen, Bool.true_or, Bool.true_or]
      · rw [beq_false_of_ne hname, Bool.false_or]
    · rw [if_neg hseen, ← List.append_cons]

/-- The first occurrences are those of all names that occur. -/
theorem any_firstOccurrences (occurrences : List (String × Position)) (name : String) :
    (firstOccurrences occurrences).any (·.1 == name) = occurrences.any (·.1 == name) :=
  any_foldl_firstOccurrences [] occurrences name

theorem mem_foldl_firstOccurrences {seen occurrences : List (String × Position)}
    {occurrence : String × Position} (h : occurrence ∈ occurrences.foldl
      (fun seen (name, loc) => if seen.any (·.1 == name) then seen else seen ++ [(name, loc)])
      seen) : occurrence ∈ seen ∨ occurrence ∈ occurrences := by
  induction occurrences generalizing seen with
  | nil => exact Or.inl h
  | cons next rest ih =>
    rw [List.foldl_cons] at h
    rcases ih h with hmem | hmem
    · dsimp only at hmem
      split at hmem
      · exact Or.inl hmem
      · rcases List.mem_append.mp hmem with hmem | hmem
        · exact Or.inl hmem
        · rw [List.mem_singleton.mp hmem]
          exact Or.inr List.mem_cons_self
    · exact Or.inr (List.mem_cons_of_mem next hmem)

theorem mem_of_mem_firstOccurrences {occurrences : List (String × Position)}
    {occurrence : String × Position} (h : occurrence ∈ firstOccurrences occurrences) :
    occurrence ∈ occurrences :=
  (mem_foldl_firstOccurrences h).resolve_left List.not_mem_nil

theorem exists_of_mem_declarations {p : Program} {name : String} {loc : Position}
    (h : (name, loc) ∈ declarations p) :
    ∃ value, .declaration name value loc ∈ Program.statements p := by
  obtain ⟨s, hs, hname⟩ := List.mem_filterMap.mp (mem_of_mem_firstOccurrences h)
  cases s with
  | declaration other value place =>
    cases hname
    exact ⟨value, hs⟩
  | _ => cases hname

theorem exists_of_mem_uses {p : Program} {name : String} {loc : Position}
    (h : (name, loc) ∈ uses p) :
    ∃ s ∈ Program.statements p, name ∈ usedNames s ∧ s.loc = loc := by
  obtain ⟨s, hs, hname⟩ := List.mem_flatMap.mp (mem_of_mem_firstOccurrences h)
  obtain ⟨other, hother, hpair⟩ := List.mem_map.mp hname
  cases hpair
  exact ⟨s, hs, hother, rfl⟩

theorem any_declarations_iff (p : Program) (name : String) :
    (declarations p).any (·.1 == name) = true ↔ Program.Declares p name := by
  unfold declarations
  rw [any_firstOccurrences, List.any_eq_true]
  constructor
  · rintro ⟨⟨other, loc⟩, hmem, heq⟩
    obtain ⟨s, hs, hdeclared⟩ := List.mem_filterMap.mp hmem
    obtain ⟨declared, hdeclares, hpair⟩ := Option.map_eq_some_iff.mp hdeclared
    cases hpair
    cases eq_of_beq heq
    exact ⟨s, hs, hdeclares⟩
  · rintro ⟨s, hs, hdeclares⟩
    refine ⟨(name, s.loc), List.mem_filterMap.mpr ⟨s, hs, ?_⟩, beq_self_eq_true name⟩
    rw [hdeclares, Option.map_some]

theorem any_uses_iff (p : Program) (name : String) :
    (uses p).any (·.1 == name) = true ↔ Program.Uses p name := by
  unfold uses
  rw [any_firstOccurrences, List.any_eq_true]
  constructor
  · rintro ⟨⟨other, loc⟩, hmem, heq⟩
    obtain ⟨s, hs, hused⟩ := List.mem_flatMap.mp hmem
    obtain ⟨used, huses, hpair⟩ := List.mem_map.mp hused
    cases hpair
    cases eq_of_beq heq
    exact ⟨s, hs, huses⟩
  · rintro ⟨s, hs, huses⟩
    refine ⟨(name, s.loc), List.mem_flatMap.mpr ⟨s, hs, ?_⟩, beq_self_eq_true name⟩
    exact List.mem_map.mpr ⟨name, huses, rfl⟩

theorem mem_loopWarnings_iff (p : Program) (d : Diagnostic) :
    d ∈ loopWarnings p ↔ ∃ test body loc, .loop test body loc ∈ Program.statements p ∧
      updates body test.left = false ∧
      d = warning (s!"Loop variable '{test.left.lexeme.value}' is never updated " ++
        "inside the loop (possible infinite loop).") loc := by
  unfold loopWarnings
  rw [List.mem_filterMap]
  constructor
  · rintro ⟨s, hs, hd⟩
    cases s with
    | loop test body loc =>
      dsimp only at hd
      split at hd
      · cases hd
      · next hupdates =>
        exact ⟨test, body, loc, hs, Bool.eq_false_iff.mpr hupdates, (Option.some.inj hd).symm⟩
    | _ => cases hd
  · rintro ⟨test, body, loc, hs, hupdates, rfl⟩
    refine ⟨_, hs, ?_⟩
    dsimp only
    rw [if_neg (Bool.eq_false_iff.mp hupdates)]

/-- The messages about names that are in one list and not in another. -/
theorem exists_message_iff {names others : List (String × Position)}
    {report : String × Position → Diagnostic} (message : String → String)
    (hmessage : ∀ name loc, (report (name, loc)).message = message name) (text : String) :
    (∃ d ∈ (names.filter fun (name, _) => !others.any (·.1 == name)).map report,
      d.message = text) ↔
    ∃ name, names.any (·.1 == name) = true ∧ ¬ others.any (·.1 == name) = true ∧
      message name = text := by
  constructor
  · rintro ⟨d, hd, htext⟩
    obtain ⟨⟨name, loc⟩, hmem, rfl⟩ := List.mem_map.mp hd
    obtain ⟨hname, hother⟩ := List.mem_filter.mp hmem
    rw [hmessage] at htext
    refine ⟨name, List.any_eq_true.mpr ⟨_, hname, beq_self_eq_true name⟩, ?_, htext⟩
    rw [Bool.not_eq_true]
    exact Bool.not_eq_true' _ ▸ hother
  · rintro ⟨name, hname, hother, htext⟩
    obtain ⟨⟨other, loc⟩, hmem, heq⟩ := List.any_eq_true.mp hname
    cases eq_of_beq heq
    have hkept : (!others.any (·.1 == other)) = true := by rw [Bool.eq_false_iff.mpr hother]; rfl
    refine ⟨report (other, loc), List.mem_map_of_mem (List.mem_filter.mpr ⟨hmem, hkept⟩), ?_⟩
    rw [hmessage, htext]

theorem exists_unusedWarning_iff (tokens : List Token) (p : Program) (text : String) :
    (∃ d ∈ unusedWarnings tokens p, d.message = text) ↔ ∃ name, Program.Declares p name ∧
      ¬ Program.Uses p name ∧ s!"Variable '{name}' is declared but never used." = text := by
  unfold unusedWarnings
  rw [exists_message_iff (fun name => s!"Variable '{name}' is declared but never used.")
    (fun _ _ => rfl)]
  simp only [any_declarations_iff, any_uses_iff]

theorem exists_undeclaredWarning_iff (p : Program) (text : String) :
    (∃ d ∈ undeclaredWarnings p, d.message = text) ↔ ∃ name, Program.Uses p name ∧
      ¬ Program.Declares p name ∧ s!"Variable '{name}' is used before declaration." = text := by
  unfold undeclaredWarnings
  rw [exists_message_iff (fun name => s!"Variable '{name}' is used before declaration.")
    (fun _ _ => rfl)]
  simp only [any_declarations_iff, any_uses_iff]

theorem loop_message_ne (value a back : String) :
    s!"Loop variable '{value}' is never updated " ++ "inside the loop (possible infinite loop)." ≠
      s!"Variable '{a}{back}" := by
  intro h
  rw [String.append_assoc, String.append_assoc, String.append_assoc] at h
  exact framed_ne_of_front (by decide) (by decide) _ _ h

/-- The three kinds of warning do not get into each other's way. -/
theorem reports_iff (tokens : List Token) (p : Program) (text : String) :
    Reports tokens p text ↔ (∃ d ∈ loopWarnings p, d.message = text) ∨
      (∃ d ∈ unusedWarnings tokens p, d.message = text) ∨
      ∃ d ∈ undeclaredWarnings p, d.message = text := by
  unfold Reports warnings
  simp only [List.mem_append, or_and_right, exists_or, or_assoc]

theorem reports_of_any {tokens : List Token} {p : Program} {text : String}
    (h : (warnings tokens p).any (·.message == text) = true) : Reports tokens p text := by
  obtain ⟨d, hd, hmessage⟩ := List.any_eq_true.mp h
  exact ⟨d, hd, eq_of_beq hmessage⟩

theorem reports_unused_iff (tokens : List Token) (p : Program) (name : String) :
    Reports tokens p s!"Variable '{name}' is declared but never used." ↔
      Program.Declares p name ∧ ¬ Program.Uses p name := by
  rw [reports_iff, exists_unusedWarning_iff, exists_undeclaredWarning_iff]
  constructor
  · rintro (⟨d, hd, hmessage⟩ | ⟨other, hdeclared, hunused, hmessage⟩ | ⟨other, _, _, hmessage⟩)
    · obtain ⟨test, body, loc, _, _, rfl⟩ := (mem_loopWarnings_iff p d).mp hd
      exact absurd hmessage (loop_message_ne _ name "' is declared but never used.")
    · cases framed_injective "Variable '" "' is declared but never used." hmessage
      exact ⟨hdeclared, hunused⟩
    · exact absurd hmessage (framed_ne_of_back (by decide) (by decide) _ _)
  · rintro ⟨hdeclared, hunused⟩
    exact Or.inr (Or.inl ⟨name, hdeclared, hunused, rfl⟩)

theorem reports_undeclared_iff (tokens : List Token) (p : Program) (name : String) :
    Reports tokens p s!"Variable '{name}' is used before declaration." ↔
      Program.Uses p name ∧ ¬ Program.Declares p name := by
  rw [reports_iff, exists_unusedWarning_iff, exists_undeclaredWarning_iff]
  constructor
  · rintro (⟨d, hd, hmessage⟩ | ⟨other, _, _, hmessage⟩ | ⟨other, hused, hundeclared, hmessage⟩)
    · obtain ⟨test, body, loc, _, _, rfl⟩ := (mem_loopWarnings_iff p d).mp hd
      exact absurd hmessage (loop_message_ne _ name "' is used before declaration.")
    · exact absurd hmessage (framed_ne_of_back (by decide) (by decide) _ _)
    · cases framed_injective "Variable '" "' is used before declaration." hmessage
      exact ⟨hused, hundeclared⟩
  · rintro ⟨hused, hundeclared⟩
    exact Or.inr (Or.inr ⟨name, hused, hundeclared, rfl⟩)

theorem loop_message_injective {a b : String}
    (h : s!"Loop variable '{a}' is never updated " ++ "inside the loop (possible infinite loop)." =
      s!"Loop variable '{b}' is never updated " ++ "inside the loop (possible infinite loop).") :
    a = b := by
  have hback (name : String) : s!"Loop variable '{name}' is never updated " ++
      "inside the loop (possible infinite loop)." = "Loop variable '" ++ name ++
        ("' is never updated " ++ "inside the loop (possible infinite loop).") :=
    String.append_assoc
  rw [hback, hback] at h
  exact framed_injective _ _ h

/-- A warning about a loop is about the one that starts where the warning stands. -/
theorem exists_loop_of_warning {tokens : List Token} {p : Program} {d : Diagnostic}
    (hd : d ∈ warnings tokens p) {value : String}
    (hmessage : d.message = s!"Loop variable '{value}' is never updated " ++
      "inside the loop (possible infinite loop).") :
    ∃ test body, .loop test body d.start ∈ Program.statements p ∧
      updates body test.left = false ∧ test.left.lexeme.value = value := by
  rw [warnings, List.append_assoc] at hd
  rcases List.mem_append.mp hd with hd | hd
  · obtain ⟨test, body, loc, hs, hupdates, rfl⟩ := (mem_loopWarnings_iff p d).mp hd
    exact ⟨test, body, hs, hupdates, loop_message_injective hmessage⟩
  · have hvariable : ∃ a back : String, s!"Variable '{a}{back}" = d.message := by
      rcases List.mem_append.mp hd with hd | hd
      · obtain ⟨name, _, _, hname⟩ := (exists_unusedWarning_iff tokens p _).mp ⟨d, hd, rfl⟩
        exact ⟨name, _, hname⟩
      · obtain ⟨name, _, _, hname⟩ := (exists_undeclaredWarning_iff p _).mp ⟨d, hd, rfl⟩
        exact ⟨name, _, hname⟩
    obtain ⟨a, back, hback⟩ := hvariable
    exact absurd (hmessage.symm.trans hback.symm) (loop_message_ne value a back)

end Lint

/-! A program with one warning of each kind. -/
namespace Sample

def warnedSource : String :=
  Text.joinLines ["maano a = 1", "maano i = 0", "jabtak i < 2 \x7b", "  likho i", "\x7d",
    "likho x + 1"]

def warnedTokens : List Token :=
  match Source.scan Source.unnamed warnedSource with
  | .ok tokens => tokens
  | .error _ => []

def warnedProgram : Program :=
  match Program.ofTokens warnedTokens with
  | .ok p => p
  | .error _ => []

theorem scan_warned : Source.scan Source.unnamed warnedSource = .ok warnedTokens := by
  decide +kernel

theorem ofTokens_warned : Program.ofTokens warnedTokens = .ok warnedProgram := by
  have hok : (Program.ofTokens warnedTokens).isOk = true := by decide +kernel
  unfold warnedProgram
  cases h : Program.ofTokens warnedTokens with
  | ok p => rfl
  | error e =>
    rw [h] at hok
    cases hok

example : (Lint.warnings warnedTokens warnedProgram).map (fun d => (d.message, d.start)) =
    [("Loop variable 'i' is never updated inside the loop (possible infinite loop).", ⟨3, 1⟩),
      ("Variable 'a' is declared but never used.", ⟨1, 1⟩),
      ("Variable 'x' is used before declaration.", ⟨6, 1⟩)] := by
  decide +kernel

end Sample

end Crafter
