import Crafter.CommandLine.Options

/-! Calls that run or check a script: its path, with breakpoints, caps and the wish
for warnings before and after it, in any order. -/
namespace Crafter

namespace Text

theorem trimBy_cons_solid {p : Char → Bool} {c : Char} (hc : p c = false) (cs : List Char) :
    ∃ ds, trimBy p (c :: cs) = c :: ds := by
  have hfirst : (c :: cs).dropWhile p = c :: cs := by
    rw [List.dropWhile_cons_of_neg]
    rw [hc]
    exact Bool.false_ne_true
  have hlast : [c].dropWhile p = [c] := by
    rw [List.dropWhile_cons_of_neg]
    rw [hc]
    exact Bool.false_ne_true
  unfold trimBy
  rw [hfirst, List.reverse_cons, List.dropWhile_append]
  split
  · exact ⟨[], by rw [hlast]; rfl⟩
  · exact ⟨_, by rw [List.reverse_append]; rfl⟩

/-- What begins with a dash is no positive number. -/
theorem not_positive_of_dash {text : String} {cs : List Char} (h : text.toList = '-' :: cs)
    {n : Int} (hn : intOfNumeral? text = some n) : n < 1 := by
  obtain ⟨ds, hds⟩ := trimBy_cons_solid (p := isNumeralPadding) (c := '-') (by decide) cs
  unfold intOfNumeral? at hn
  rw [h, hds] at hn
  obtain ⟨k, hk, rfl⟩ := Option.map_eq_some_iff.mp hn
  obtain ⟨m, -, hm⟩ := Option.bind_eq_some_iff.mp hk
  cases hm
  omega

end Text

namespace CommandLine

/-- A numeral for a positive number. -/
structure PositiveNumeral where
  text : String
  value : Int
  denotes : Text.intOfNumeral? text = some value
  positive : 1 ≤ value

/-- What may be asked for besides the script. -/
inductive Wish where
  /-- To pause on a line. -/
  | line (numeral : PositiveNumeral)
  | cap (numeral : PositiveNumeral)
  | lint

namespace Wish

/-- The arguments that a wish is put into. -/
def arguments : Wish → List String
  | .line numeral => ["-b", numeral.text]
  | .cap numeral => ["--max-iterations", numeral.text]
  | .lint => ["--lint"]

def line? : Wish → Option Int
  | .line numeral => some numeral.value
  | _ => none

def cap? : Wish → Option Int
  | .cap numeral => some numeral.value
  | _ => none

def isLint : Wish → Bool
  | .lint => true
  | _ => false

/-- How the arguments of a wish read, each on its own. -/
def roles : Wish → List (String × Role)
  | .line numeral => [("-b", .bundle (.ok ⟨[], some .breakpoint⟩)), (numeral.text, .operand)]
  | .cap numeral =>
    [("--max-iterations", .bundle (.ok ⟨[], some .cap⟩)), (numeral.text, .operand)]
  | .lint => [("--lint", .bundle (.ok ⟨[(.lint, none)], none⟩))]

/-- The options after one wish more. -/
def grant (o : Options) : Wish → Options
  | .line numeral => { o with breakpoints := o.breakpoints ++ [some numeral.value] }
  | .cap numeral => { o with cap := some numeral.value }
  | .lint => { o with lint := true }

end Wish

/-- The lines to pause on. -/
def linesOf (wishes : List Wish) : List Int := wishes.filterMap Wish.line?

/-- The caps that are given. -/
def capsOf (wishes : List Wish) : List Int := wishes.filterMap Wish.cap?

/-- The cap that was given last, or the standard one. -/
def capOf (wishes : List Wish) : Int := (capsOf wishes).getLast?.getD Cap.standard.count

theorem one_le_capOf (wishes : List Wish) : 1 ≤ capOf wishes := by
  unfold capOf
  cases h : (capsOf wishes).getLast? with
  | none => decide
  | some cap =>
    obtain ⟨wish, -, hwish⟩ := List.mem_filterMap.mp (List.mem_of_getLast? h)
    cases wish with
    | cap numeral =>
      cases hwish
      exact numeral.positive
    | line | lint => cases hwish

/-- What is asked for with a path and wishes. -/
def Options.asked (path : String) (wishes : List Wish) : Options where
  script := some path
  interactive := false
  tokens := false
  outline := false
  json := false
  lint := wishes.any Wish.isLint
  breakpoints := (linesOf wishes).map some
  cap := some (capOf wishes)
  debug := false

/-! Each argument on its own -/

theorem readArgument_of_text {text : String} (h : ∀ cs, text.toList ≠ '-' :: cs) :
    readArgument text = .ok .operand := by
  unfold readArgument
  dsimp only
  generalize (if isNegativeNumber text = true ∨ text.toList.contains ' ' = true then
    Role.operand else .unknown) = otherwise
  split
  · next heq => exact absurd heq (h _)
  · next heq => exact absurd heq (h _)
  · next heq => exact absurd heq (h _)
  · rfl

theorem readArgument_of_numeral (numeral : PositiveNumeral) :
    readArgument numeral.text = .ok .operand := by
  apply readArgument_of_text
  intro cs hdash
  have hlow := Text.not_positive_of_dash hdash numeral.denotes
  have hhigh := numeral.positive
  omega

theorem readArguments_cons {argument : String} {role : Role} (h : readArgument argument = .ok role)
    (hrole : role ≠ .divider) {rest : List String} {roles : List (String × Role)}
    (hrest : readArguments rest = .ok roles) :
    readArguments (argument :: rest) = .ok ((argument, role) :: roles) := by
  rw [readArguments, h]
  cases role with
  | divider => exact absurd rfl hrole
  | _ =>
    dsimp only [bind, Except.bind]
    rw [hrest]
    rfl

theorem readArgument_line :
    readArgument "-b" = .ok (.bundle (.ok ⟨[], some .breakpoint⟩)) := rfl

theorem readArgument_cap :
    readArgument "--max-iterations" = .ok (.bundle (.ok ⟨[], some .cap⟩)) := rfl

theorem readArgument_lint :
    readArgument "--lint" = .ok (.bundle (.ok ⟨[(.lint, none)], none⟩)) := rfl

theorem readArguments_wish (wish : Wish) {rest : List String} {roles : List (String × Role)}
    (hrest : readArguments rest = .ok roles) :
    readArguments (wish.arguments ++ rest) = .ok (wish.roles ++ roles) := by
  cases wish with
  | line numeral =>
    apply readArguments_cons readArgument_line nofun
    exact readArguments_cons (readArgument_of_numeral numeral) nofun hrest
  | cap numeral =>
    apply readArguments_cons readArgument_cap nofun
    exact readArguments_cons (readArgument_of_numeral numeral) nofun hrest
  | lint => exact readArguments_cons readArgument_lint nofun hrest

theorem readArguments_wishes (wishes : List Wish) {rest : List String}
    {roles : List (String × Role)} (hrest : readArguments rest = .ok roles) :
    readArguments (wishes.flatMap Wish.arguments ++ rest) =
      .ok (wishes.flatMap Wish.roles ++ roles) := by
  induction wishes with
  | nil => exact hrest
  | cons wish wishes ih =>
    rw [List.flatMap_cons, List.flatMap_cons, List.append_assoc, List.append_assoc]
    exact readArguments_wish wish ih

/-! One wish after the other -/

namespace Progress

theorem positive_of_numeral (s : Switch) (numeral : PositiveNumeral) :
    positive s numeral.text = .ok numeral.value := by
  have hnot : ¬numeral.value < 1 := Int.not_lt.mpr numeral.positive
  unfold positive
  rw [numeral.denotes]
  exact if_neg hnot

variable (p : Progress)

/-- An option alone in its argument is followed once its value is there. -/
theorem applyBundle_awaiting (s : Switch) (value : String) :
    p.applyBundle ⟨[], some s⟩ (some value) = p.apply (s, some value) := by
  unfold applyBundle
  dsimp only [List.nil_append]
  rw [List.foldlM_cons]
  exact bind_pure _

theorem mapM_positive (s : Switch) (numeral : PositiveNumeral) :
    (some numeral.text).mapM (positive s) = .ok (some numeral.value) := by
  rw [Option.mapM_some, positive_of_numeral]
  rfl

/-- An option that waits for a value takes the next argument. -/
theorem follow_valued {s : Switch} {given : List (Switch × Option String)} (argument value : String)
    (rest : List (String × Role)) :
    p.follow ((argument, .bundle (.ok ⟨given, some s⟩)) :: (value, .operand) :: rest) =
      p.applyBundle ⟨given, some s⟩ (some value) >>= fun q => q.follow rest := by
  rw [follow.eq_def]

theorem follow_wish (wish : Wish) (rest : List (String × Role)) :
    p.follow (wish.roles ++ rest) = follow { p with options := wish.grant p.options } rest := by
  cases wish with
  | line numeral =>
    refine (p.follow_valued "-b" numeral.text rest).trans ?_
    rw [applyBundle_awaiting, apply, mapM_positive]
    rfl
  | cap numeral =>
    refine (p.follow_valued "--max-iterations" numeral.text rest).trans ?_
    rw [applyBundle_awaiting, apply, mapM_positive]
    rfl
  | lint =>
    change p.follow ((_, .bundle (.ok _)) :: rest) = _
    rw [follow]
    · rfl
    · rfl

theorem follow_wishes (wishes : List Wish) (rest : List (String × Role)) :
    p.follow (wishes.flatMap Wish.roles ++ rest) =
      { p with options := wishes.foldl Wish.grant p.options }.follow rest := by
  induction wishes generalizing p with
  | nil => rfl
  | cons wish wishes ih =>
    rw [List.flatMap_cons, List.append_assoc, follow_wish, ih, List.foldl_cons]

/-- The path takes the place of the script. -/
theorem follow_path (hfree : p.scriptTaken = false) (path : String) (wishes : List Wish) :
    p.follow ((path, .operand) :: wishes.flatMap Wish.roles) =
      follow { p with options.script := some path, scriptTaken := true }
        (wishes.flatMap Wish.roles) := by
  -- a divider right behind the path would be dropped, but no wish begins with one
  have hnext : ∀ divider rest, wishes.flatMap Wish.roles ≠ (divider, .divider) :: rest := by
    intro divider rest
    cases wishes with
    | nil => exact nofun
    | cons wish wishes => cases wish <;> exact nofun
  rw [follow]
  · rw [hfree]
    rfl
  · exact hnext

end Progress

theorem foldl_grant (o : Options) (wishes : List Wish) :
    wishes.foldl Wish.grant o = { o with
      lint := o.lint || wishes.any Wish.isLint
      breakpoints := o.breakpoints ++ (linesOf wishes).map some
      cap := ((capsOf wishes).getLast?.map some).getD o.cap } := by
  induction wishes generalizing o with
  | nil =>
    rw [List.foldl_nil, List.any_nil, Bool.or_false]
    change o = { o with breakpoints := o.breakpoints ++ [] }
    rw [List.append_nil]
  | cons wish wishes ih =>
    rw [List.foldl_cons, ih]
    unfold Wish.grant
    cases wish with
    | line numeral =>
      have hlines : linesOf (.line numeral :: wishes) = numeral.value :: linesOf wishes := rfl
      dsimp only
      rw [hlines, List.map_cons, List.append_assoc]
      rfl
    | cap numeral =>
      have hcaps : capsOf (.cap numeral :: wishes) = numeral.value :: capsOf wishes := rfl
      dsimp only
      rw [hcaps, List.getLast?_cons]
      cases (capsOf wishes).getLast? <;> rfl
    | lint =>
      dsimp only
      rw [List.any_cons]
      cases o.lint <;> rfl

/-- The options that a path and wishes before and after it add up to. -/
theorem grant_asked (path : String) (before after : List Wish) :
    after.foldl Wish.grant { before.foldl Wish.grant .standard with script := some path } =
      .asked path (before ++ after) := by
  have hlines : linesOf (before ++ after) = linesOf before ++ linesOf after :=
    List.filterMap_append
  have hcaps : capsOf (before ++ after) = capsOf before ++ capsOf after := List.filterMap_append
  rw [foldl_grant, foldl_grant]
  unfold Options.asked capOf
  rw [hlines, hcaps, List.any_append, List.map_append, List.getLast?_append]
  cases (capsOf after).getLast? <;> cases (capsOf before).getLast? <;> rfl

/-- A path and wishes are followed, in whatever order they come. -/
theorem ofArguments_asked {path : String} (hpath : ∀ cs, path.toList ≠ '-' :: cs)
    (before after : List Wish) :
    Options.ofArguments
        (before.flatMap Wish.arguments ++ path :: after.flatMap Wish.arguments) =
      .ok (.asked path (before ++ after)) := by
  have hafter : readArguments (after.flatMap Wish.arguments) = .ok (after.flatMap Wish.roles) := by
    have h : readArguments (_ ++ []) = .ok (_ ++ []) := readArguments_wishes after rfl
    rwa [List.append_nil, List.append_nil] at h
  have hread := readArguments_wishes before
    (readArguments_cons (readArgument_of_text hpath) nofun hafter)
  have hend (p : Progress) : p.follow (after.flatMap Wish.roles) =
      .ok { p with options := after.foldl Wish.grant p.options } := by
    have h := p.follow_wishes after []
    rwa [List.append_nil, Progress.follow] at h
  unfold Options.ofArguments
  rw [hread]
  dsimp only
  rw [Progress.follow_wishes, Progress.follow_path _ rfl, hend, ← grant_asked]
  rfl

end CommandLine

end Crafter
