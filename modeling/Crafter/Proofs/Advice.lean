import Crafter.Proofs.Findings
import Crafter.Proofs.Legible
import Crafter.Proofs.Warnings
import Mathlib.Data.List.Forall2

/-! The whole of lint's answer, told by the phrases of a program: which warnings there
are, in which order, where each is placed and where it ends. -/
namespace Crafter

namespace Lint

/-- The names that are admitted, each once, with the place of its first occurrence and
in the order of these. -/
structure Listing (occurrences : List (String × Position)) (admits : String → Prop)
    (entries : List (String × Position)) : Prop where
  once : (entries.map (·.1)).Nodup
  complete : ∀ name, name ∈ entries.map (·.1) ↔ name ∈ occurrences.map (·.1) ∧ admits name
  located : ∀ name loc, (name, loc) ∈ entries → ∃ before after,
    occurrences = before ++ (name, loc) :: after ∧ ∀ o ∈ before, o.1 ≠ name
  ordered : entries.Pairwise fun x y =>
    (occurrences.map (·.1)).idxOf x.1 < (occurrences.map (·.1)).idxOf y.1

theorem any_iff_mem (entries : List (String × Position)) (name : String) :
    entries.any (·.1 == name) = true ↔ name ∈ entries.map (·.1) := by
  simp [List.any_eq_true]

theorem firstOccurrences_concat (occurrences : List (String × Position)) (name : String)
    (loc : Position) : firstOccurrences (occurrences ++ [(name, loc)]) =
      if name ∈ occurrences.map (·.1) then firstOccurrences occurrences
      else firstOccurrences occurrences ++ [(name, loc)] := by
  have hstep : firstOccurrences (occurrences ++ [(name, loc)]) =
      if (firstOccurrences occurrences).any (·.1 == name) then firstOccurrences occurrences
      else firstOccurrences occurrences ++ [(name, loc)] := by
    unfold firstOccurrences
    rw [List.foldl_append]
    rfl
  rw [hstep, any_firstOccurrences]
  simp only [any_iff_mem]

/-- The order of what has occurred does not change when more occurs. -/
theorem pairwise_idxOf_append {names : List String} (more : List String)
    {entries : List (String × Position)} (hnames : ∀ x ∈ entries, x.1 ∈ names)
    (h : entries.Pairwise fun x y => names.idxOf x.1 < names.idxOf y.1) :
    entries.Pairwise fun x y => (names ++ more).idxOf x.1 < (names ++ more).idxOf y.1 := by
  refine h.imp_of_mem ?_
  intro x y hx hy hlt
  rwa [List.idxOf_append_of_mem (hnames x hx), List.idxOf_append_of_mem (hnames y hy)]

section

variable {occurrences entries : List (String × Position)} {name : String}

theorem Listing.mem_names (h : Listing occurrences (fun _ => True) entries)
    {x : String × Position} (hx : x ∈ entries) : x.1 ∈ occurrences.map (·.1) :=
  ((h.complete x.1).mp (List.mem_map_of_mem hx)).1

/-- What occurs later does not move a first occurrence. -/
theorem Listing.located_append (h : Listing occurrences (fun _ => True) entries)
    (more : List (String × Position)) {other : String} {place : Position}
    (hmem : (other, place) ∈ entries) : ∃ before after,
      occurrences ++ more = before ++ (other, place) :: after ∧ ∀ o ∈ before, o.1 ≠ other := by
  obtain ⟨before, after, heq, hbefore⟩ := h.located other place hmem
  refine ⟨before, after ++ more, ?_, hbefore⟩
  rw [heq, List.append_assoc, List.cons_append]

/-- A name that occurs again adds nothing. -/
theorem Listing.again (h : Listing occurrences (fun _ => True) entries) (loc : Position)
    (hseen : name ∈ occurrences.map (·.1)) :
    Listing (occurrences ++ [(name, loc)]) (fun _ => True) entries where
  once := h.once
  complete other := by
    have hlast : other ∈ [(name, loc)].map (·.1) → other ∈ occurrences.map (·.1) := by
      intro hother
      rwa [List.mem_singleton.mp hother]
    rw [h.complete, List.map_append, List.mem_append, or_iff_left_of_imp hlast]
  located _ _ hmem := h.located_append [(name, loc)] hmem
  ordered := by
    rw [List.map_append]
    exact pairwise_idxOf_append _ (fun _ hx => h.mem_names hx) h.ordered

/-- A name that has not occurred yet comes last. -/
theorem Listing.concat (h : Listing occurrences (fun _ => True) entries) (loc : Position)
    (hnew : name ∉ occurrences.map (·.1)) :
    Listing (occurrences ++ [(name, loc)]) (fun _ => True) (entries ++ [(name, loc)]) where
  once := by
    have hfresh : name ∉ entries.map (·.1) := fun hname => hnew ((h.complete name).mp hname).1
    rw [List.map_append]
    refine List.nodup_append.mpr ⟨h.once, List.pairwise_singleton _ _, ?_⟩
    rintro other hother _ hlast rfl
    rw [List.mem_singleton.mp hlast] at hother
    exact hfresh hother
  complete other := by
    rw [List.map_append, List.map_append, List.mem_append, List.mem_append, h.complete]
    simp only [and_true]
  located other place hmem := by
    rcases List.mem_append.mp hmem with hmem | hmem
    · exact h.located_append [(name, loc)] hmem
    · cases List.mem_singleton.mp hmem
      refine ⟨occurrences, [], rfl, ?_⟩
      rintro o ho rfl
      exact hnew (List.mem_map_of_mem ho)
  ordered := by
    rw [List.map_append]
    refine List.pairwise_append.mpr ⟨?_, List.pairwise_singleton _ _, ?_⟩
    · exact pairwise_idxOf_append _ (fun _ hx => h.mem_names hx) h.ordered
    · intro x hx y hy
      have hold : (occurrences.map (·.1)).idxOf x.1 < (occurrences.map (·.1)).length :=
        List.idxOf_lt_length_of_mem (h.mem_names hx)
      rw [List.mem_singleton.mp hy, List.idxOf_append_of_mem (h.mem_names hx),
        List.idxOf_append_of_notMem hnew]
      omega

end

/-- The induction is on what has occurred so far, from the front. -/
theorem listing_firstOccurrences (occurrences : List (String × Position)) :
    Listing occurrences (fun _ => True) (firstOccurrences occurrences) := by
  induction occurrences using List.reverseRecOn with
  | nil => exact ⟨List.nodup_nil, by simp [firstOccurrences], nofun, .nil⟩
  | append_singleton occurrences occurrence ih =>
    obtain ⟨name, loc⟩ := occurrence
    rw [firstOccurrences_concat]
    by_cases hseen : name ∈ occurrences.map (·.1)
    · rw [if_pos hseen]
      exact ih.again loc hseen
    · rw [if_neg hseen]
      exact ih.concat loc hseen

theorem Listing.filter {occurrences entries : List (String × Position)} {admits : String → Prop}
    (h : Listing occurrences (fun _ => True) entries) (keep : String × Position → Bool)
    (hkeep : ∀ x, keep x = true ↔ admits x.1) :
    Listing occurrences admits (entries.filter keep) where
  once := h.once.sublist (List.filter_sublist.map _)
  complete name := by
    have hcomplete := h.complete name
    simp only [List.mem_map, List.mem_filter, hkeep, and_true] at hcomplete ⊢
    rw [← hcomplete]
    constructor
    · rintro ⟨x, ⟨hx, hadmits⟩, rfl⟩
      exact ⟨⟨x, hx, rfl⟩, hadmits⟩
    · rintro ⟨⟨x, hx, rfl⟩, hadmits⟩
      exact ⟨x, ⟨hx, hadmits⟩, rfl⟩
  located name loc hmem := h.located name loc (List.mem_of_mem_filter hmem)
  ordered := h.ordered.sublist List.filter_sublist

end Lint

namespace Grammar

/-- The name that a phrase itself gives a value, blocks inside it left aside. -/
def Phrase.target? : Phrase → Option String
  | .declaration _ name _ _ _ => some name
  | _ => none

/-- The names that are declared, in the order of the text. -/
def declared (d : Derivation) : List (String × Position) :=
  (Derivation.phrases d).filterMap fun phrase =>
    phrase.target?.map fun name => (name, phrase.start)

/-- The names that are mentioned, in the order of the text. -/
def mentioned (d : Derivation) : List (String × Position) :=
  (Derivation.phrases d).flatMap fun phrase => phrase.names.map fun name => (name, phrase.start)

theorem declaredName?_tree (phrase : Phrase) :
    Lint.declaredName? phrase.tree = phrase.target? := by
  cases phrase <;> rfl

theorem declarations_tree (d : Derivation) :
    Lint.declarations (Derivation.tree d) = Lint.firstOccurrences (declared d) := by
  unfold Lint.declarations declared
  rw [statements_tree, List.filterMap_map]
  refine congrArg _ (List.filterMap_congr ?_)
  intro phrase _
  rw [Function.comp, declaredName?_tree, loc_tree]

theorem uses_tree {d : Derivation}
    (hspelt : ∀ phrase ∈ Derivation.phrases d, ∀ t ∈ phrase.content, t.WellSpelt) :
    Lint.uses (Derivation.tree d) = Lint.firstOccurrences (mentioned d) := by
  unfold Lint.uses mentioned
  rw [statements_tree, List.flatMap_map]
  refine congrArg _ (List.flatMap_congr ?_)
  intro phrase hphrase
  rw [Lint.usedNames_tree (hspelt phrase hphrase), loc_tree]

theorem mem_declared_iff (d : Derivation) (name : String) :
    name ∈ (declared d).map (·.1) ↔
      ∃ phrase ∈ Derivation.phrases d, phrase.target? = some name := by
  simp [declared, List.mem_filterMap]

theorem mem_mentioned_iff (d : Derivation) (name : String) :
    name ∈ (mentioned d).map (·.1) ↔ ∃ phrase ∈ Derivation.phrases d, name ∈ phrase.names := by
  simp [mentioned, List.mem_flatMap]

/-- A loop whose left operand is not the name of a declaration inside its body. A number
never is. -/
inductive Phrase.Idle : Phrase → Prop
  | loop {keyword : Terminal (.keyword .loop)} {test : Test} {body : Block Phrase}
      (unchanged : ∀ phrase ∈ Block.phrases body, ∀ name, phrase.target? = some name →
        test.left.val.lexeme ≠ .identifier name) : Phrase.Idle (.loop keyword test body)

/-- The warning about a loop. -/
inductive LoopAdvice : Phrase → Diagnostic → Prop
  | loop (keyword : Terminal (.keyword .loop)) (test : Test) (body : Block Phrase) :
      LoopAdvice (.loop keyword test body)
        (Lint.warning (s!"Loop variable '{test.left.val.lexeme.value}' is never updated " ++
          "inside the loop (possible infinite loop).") keyword.val.span.start)

theorem assigns_tree {t : Token} (h : IsOperand t) (phrase : Phrase) :
    Lint.assigns t phrase.tree = true ↔
      ∃ name, phrase.target? = some name ∧ t.lexeme = .identifier name := by
  unfold Lint.assigns
  rw [declaredName?_tree]
  rcases h with ⟨name, hlexeme⟩ | ⟨value, hlexeme⟩
  · rw [hlexeme]
    constructor
    · intro h
      exact ⟨name, eq_of_beq h, rfl⟩
    · rintro ⟨other, htarget, hsame⟩
      cases hsame
      rw [htarget]
      exact beq_self_eq_true _
  · rw [hlexeme]
    constructor
    · nofun
    · rintro ⟨_, _, hsame⟩
      cases hsame

theorem idle_loop_iff (keyword : Terminal (.keyword .loop)) (test : Test) (body : Block Phrase) :
    (Phrase.loop keyword test body).Idle ↔
      Lint.updates (Block.tree body) test.condition.left = false := by
  have hupdates : Lint.updates (Block.tree body) test.condition.left = true ↔
      ∃ phrase ∈ Block.phrases body, ∃ name, phrase.target? = some name ∧
        test.left.val.lexeme = .identifier name := by
    unfold Lint.updates
    rw [block_phrases_tree, List.any_map, List.any_eq_true]
    simp only [Function.comp]
    exact exists_congr fun phrase => and_congr_right fun _ =>
      assigns_tree test.left.property phrase
  rw [← Bool.not_eq_true, hupdates]
  constructor
  · rintro ⟨unchanged⟩ ⟨phrase, hphrase, name, htarget, hlexeme⟩
    exact unchanged phrase hphrase name htarget hlexeme
  · intro h
    refine .loop fun phrase hphrase name htarget hlexeme => ?_
    exact h ⟨phrase, hphrase, name, htarget, hlexeme⟩

theorem loopFinding?_of_idle {phrase : Phrase} (h : phrase.Idle) :
    ∃ f, Lint.loopFinding? phrase.tree = some f ∧ LoopAdvice phrase f.diagnostic := by
  cases phrase with
  | loop keyword test body =>
    have hupdates := (idle_loop_iff keyword test body).mp h
    refine ⟨⟨.unchanged, test.left.val.lexeme, keyword.val.span.start, none⟩, ?_,
      .loop keyword test body⟩
    rw [Phrase.tree, Lint.loopFinding?, if_neg (Bool.eq_false_iff.mp hupdates)]
    rfl
  | declaration | printText | printValue | conditional | alternative => cases h

theorem loopFinding?_of_not_idle {phrase : Phrase} (h : ¬ phrase.Idle) :
    Lint.loopFinding? phrase.tree = none := by
  cases phrase with
  | loop keyword test body =>
    have hupdates : Lint.updates (Block.tree body) test.condition.left = true := by
      rwa [idle_loop_iff, Bool.not_eq_false] at h
    rw [Phrase.tree, Lint.loopFinding?, if_pos hupdates]
  | declaration | printText | printValue | conditional | alternative => rfl

open Classical in
/-- There is one warning for each such loop, in the order of the text. -/
theorem loopWarnings_tree (d : Derivation) : List.Forall₂ LoopAdvice
    ((Derivation.phrases d).filter fun phrase => decide phrase.Idle)
    (Lint.loopWarnings (Derivation.tree d)) := by
  rw [Lint.loopWarnings_eq, statements_tree]
  induction Derivation.phrases d with
  | nil => exact .nil
  | cons phrase phrases ih =>
    rw [List.map_cons]
    by_cases hidle : phrase.Idle
    · obtain ⟨f, hfinding, hadvice⟩ := loopFinding?_of_idle hidle
      rw [List.filter_cons, if_pos (decide_eq_true hidle), List.filterMap_cons_some hfinding,
        List.map_cons]
      exact .cons hadvice ih
    · rw [List.filter_cons, if_neg (by rwa [decide_eq_true_iff]),
        List.filterMap_cons_none (loopFinding?_of_not_idle hidle)]
      exact ih

theorem exists_target {d : Derivation} {name : String} {loc : Position}
    (h : (name, loc) ∈ declared d) : ∃ before keyword target after,
      Derivation.tokens d = before ++ keyword :: target :: after ∧
      keyword.lexeme = .keyword .declare ∧ keyword.span.start = loc ∧
      target.lexeme = .identifier name := by
  obtain ⟨phrase, hphrase, hsome⟩ := List.mem_filterMap.mp h
  cases phrase with
  | declaration keyword name target equals value =>
    cases hsome
    obtain ⟨before, after, hown⟩ := own_adjacent _ d hphrase
    refine ⟨before, keyword, target, equals :: (value.tokens ++ after), ?_, keyword.property, rfl,
      target.property⟩
    rw [← hown, List.append_assoc]
    rfl
  | printText | printValue | conditional | alternative | loop => cases hsome

end Grammar

namespace Lint

open Grammar

theorem mem_zip_tail_iff (tokens : List Token) (a b : Token) :
    (a, b) ∈ tokens.zip tokens.tail ↔ ∃ before after, tokens = before ++ a :: b :: after := by
  constructor
  · intro h
    induction tokens with
    | nil => cases h
    | cons t tokens ih =>
      cases tokens with
      | nil => cases h
      | cons u tokens =>
        rcases List.mem_cons.mp h with h | h
        · cases h
          exact ⟨[], tokens, rfl⟩
        · obtain ⟨before, after, htokens⟩ := ih h
          exact ⟨t :: before, after, by rw [htokens]; rfl⟩
  · rintro ⟨before, after, rfl⟩
    induction before with
    | nil => exact List.mem_cons_self
    | cons t before ih =>
      obtain ⟨u, us, hrest⟩ : ∃ u us, before ++ a :: b :: after = u :: us :=
        List.exists_cons_of_ne_nil (by simp)
      rw [hrest] at ih
      rw [List.cons_append, hrest]
      exact List.mem_cons_of_mem (t, u) ih

/-- Where no two tokens start at one place, the place tells what follows. -/
theorem rest_eq_of_start_eq {before before' rest rest' : List Token} {a b : Token}
    (hnodup : ((before ++ a :: rest).map (·.span.start)).Nodup)
    (h : before ++ a :: rest = before' ++ b :: rest') (hstart : a.span.start = b.span.start) :
    a :: rest = b :: rest' := by
  induction before generalizing before' with
  | nil =>
    cases before' with
    | nil => exact h
    | cons t before' =>
      obtain ⟨rfl, rfl⟩ := List.cons_eq_cons.mp h
      rw [List.nil_append, List.map_cons] at hnodup
      refine absurd ?_ (List.nodup_cons.mp hnodup).1
      rw [hstart]
      exact List.mem_map_of_mem (List.mem_append_right before' List.mem_cons_self)
  | cons t before ih =>
    rw [List.cons_append, List.map_cons] at hnodup
    cases before' with
    | nil =>
      -- one list would begin with a token that stands later in the other
      obtain ⟨rfl, rfl⟩ := List.cons_eq_cons.mp h
      refine absurd ?_ (List.nodup_cons.mp hnodup).1
      rw [← hstart]
      exact List.mem_map_of_mem (List.mem_append_right before List.mem_cons_self)
    | cons u before' =>
      exact ih (List.nodup_cons.mp hnodup).2 (List.cons_eq_cons.mp h).2

/-- The name after the keyword of a declaration is found by the place of the keyword. -/
theorem nameTokenAt?_eq {tokens before after : List Token} {keyword target : Token}
    (hnodup : (tokens.map (·.span.start)).Nodup)
    (htokens : tokens = before ++ keyword :: target :: after)
    (hkeyword : keyword.lexeme = .keyword .declare) {name : String}
    (htarget : target.lexeme = .identifier name) :
    nameTokenAt? tokens keyword.span.start = some target := by
  have hmem : (keyword, target) ∈ (tokens.zip tokens.tail).reverse :=
    List.mem_reverse.mpr ((mem_zip_tail_iff tokens keyword target).mpr ⟨before, after, htokens⟩)
  unfold nameTokenAt?
  rw [List.findRev?_eq_find?_reverse]
  generalize hfind : (tokens.zip tokens.tail).reverse.find? _ = found
  cases found with
  | none =>
    have hnone := List.find?_eq_none.mp hfind _ hmem
    dsimp only at hnone
    rw [hkeyword, htarget] at hnone
    exact absurd (decide_eq_true rfl) hnone
  | some pair =>
    obtain ⟨a, b⟩ := pair
    have hpair := List.mem_reverse.mp (List.mem_of_find?_eq_some hfind)
    have hstart : a.span.start = keyword.span.start := by
      have hholds := List.find?_some hfind
      dsimp only at hholds
      split at hholds
      · exact of_decide_eq_true hholds
      · cases hholds
    obtain ⟨before', after', hsplit⟩ := (mem_zip_tail_iff tokens a b).mp hpair
    rw [hsplit] at hnodup htokens
    cases rest_eq_of_start_eq hnodup htokens hstart
    rfl

end Lint

namespace Program

open Grammar

variable {file source : String} {tokens : List Token} {p : Program}

/-- The warning about a variable that is never used, which ends with the given token. -/
def unusedAdvice (target : Option Token) (name : String) (loc : Position) : Diagnostic :=
  { Lint.warning s!"Variable '{name}' is declared but never used." loc with
    endLine := target.map (·.span.stop.line)
    endColumn := target.map (·.span.stop.column) }

def undeclaredAdvice (name : String) (loc : Position) : Diagnostic :=
  Lint.warning s!"Variable '{name}' is used before declaration." loc

theorem unusedWarnings_eq (shown : List Token) (p : Program) :
    Lint.unusedWarnings shown p = ((Lint.declarations p).filter fun x =>
      !(Lint.uses p).any (·.1 == x.1)).map fun x =>
        unusedAdvice (Lint.nameTokenAt? shown x.2) x.1 x.2 := by
  unfold Lint.unusedWarnings unusedAdvice
  refine List.map_congr_left ?_
  intro x _
  simp only [Option.map_map]
  rfl

theorem not_any_uses_iff {d : Derivation}
    (hspelt : ∀ phrase ∈ Derivation.phrases d, ∀ t ∈ phrase.content, t.WellSpelt)
    (name : String) : (!(Lint.uses (Derivation.tree d)).any (·.1 == name)) = true ↔
      ∀ phrase ∈ Derivation.phrases d, name ∉ phrase.names := by
  rw [Bool.not_eq_true', ← Bool.not_eq_true, uses_tree hspelt, Lint.any_firstOccurrences,
    Lint.any_iff_mem, mem_mentioned_iff]
  simp only [not_exists, not_and]

theorem not_any_declarations_iff (d : Derivation) (name : String) :
    (!(Lint.declarations (Derivation.tree d)).any (·.1 == name)) = true ↔
      ∀ phrase ∈ Derivation.phrases d, phrase.target? ≠ some name := by
  rw [Bool.not_eq_true', ← Bool.not_eq_true, declarations_tree, Lint.any_firstOccurrences,
    Lint.any_iff_mem, mem_declared_iff]
  simp only [not_exists, not_and]

/-- What lint answers about the tree that a derivation stands for. -/
structure Advises (d : Derivation) (loops : List Diagnostic)
    (unused undeclared : List (String × Position)) : Prop where
  idle : List.Forall₂ LoopAdvice
    (open Classical in (Derivation.phrases d).filter fun phrase => decide phrase.Idle) loops
  neverUsed : Lint.Listing (declared d)
    (fun name => ∀ phrase ∈ Derivation.phrases d, name ∉ phrase.names) unused
  neverDeclared : Lint.Listing (mentioned d)
    (fun name => ∀ phrase ∈ Derivation.phrases d, phrase.target? ≠ some name) undeclared
  answer : ∀ shown, Lint.warnings shown (Derivation.tree d) = loops ++
    unused.map (fun x => unusedAdvice (Lint.nameTokenAt? shown x.2) x.1 x.2) ++
    undeclared.map fun x => undeclaredAdvice x.1 x.2

theorem exists_advises {d : Derivation}
    (hspelt : ∀ phrase ∈ Derivation.phrases d, ∀ t ∈ phrase.content, t.WellSpelt) :
    ∃ loops unused undeclared, Advises d loops unused undeclared := by
  refine ⟨_, _, _, loopWarnings_tree d,
    (Lint.listing_firstOccurrences (declared d)).filter
      (fun x => !(Lint.uses (Derivation.tree d)).any (·.1 == x.1))
      fun x => not_any_uses_iff hspelt x.1,
    (Lint.listing_firstOccurrences (mentioned d)).filter
      (fun x => !(Lint.declarations (Derivation.tree d)).any (·.1 == x.1))
      fun x => not_any_declarations_iff d x.1, ?_⟩
  intro shown
  rw [Lint.warnings, unusedWarnings_eq, ← declarations_tree, ← uses_tree hspelt]
  rfl

/-- Lint's answer about the tree of a source: first the loops whose left operand their
body leaves as it is, then the names that are declared and not mentioned, then those
that are mentioned and not declared. The warnings about unused names end where the
names end in their declarations if the tokens of the source are given, and have no end
if no tokens are given; nothing else depends on the tokens. -/
theorem warnings_listed (hscan : Source.scan file source = .ok tokens)
    (h : ofTokens tokens = .ok p) :
    ∃ d, Derivation.tokens d = tokens ∧ Derivation.tree d = p ∧
      ∃ loops unused undeclared, Advises d loops unused undeclared ∧
        ∀ name loc, (name, loc) ∈ unused → Lint.nameTokenAt? [] loc = none ∧
          ∃ before keyword target after, tokens = before ++ keyword :: target :: after ∧
            keyword.lexeme = .keyword .declare ∧ keyword.span.start = loc ∧
            target.lexeme = .identifier name ∧ Lint.nameTokenAt? tokens loc = some target := by
  obtain ⟨d, hd, rfl⟩ := exists_derivation_of_ofTokens h
  have hnodup : (tokens.map (·.span.start)).Nodup :=
    Position.nodup_of_pairwise_before (List.pairwise_map.mpr (Source.pairwise_of_scan file hscan))
  obtain ⟨loops, unused, undeclared, hadvises⟩ :=
    exists_advises fun phrase hphrase => wellSpelt_of_mem_phrases hscan hd hphrase
  refine ⟨d, hd, rfl, loops, unused, undeclared, hadvises, ?_⟩
  intro name loc hmem
  obtain ⟨before', after', hsplit, -⟩ := hadvises.neverUsed.located name loc hmem
  have hdeclared : (name, loc) ∈ declared d := by
    rw [hsplit]
    exact List.mem_append_right before' List.mem_cons_self
  obtain ⟨before, keyword, target, after, htokens, hkeyword, rfl, htarget⟩ :=
    exists_target hdeclared
  rw [hd] at htokens
  exact ⟨rfl, before, keyword, target, after, htokens, hkeyword, rfl, htarget,
    Lint.nameTokenAt?_eq hnodup htokens hkeyword htarget⟩

/-- The sample has one warning of each kind. -/
theorem warnings_listed_sample :
    (Lint.warnings [] Sample.warnedProgram).map (·.message) =
      ["Loop variable 'i' is never updated inside the loop (possible infinite loop).",
        "Variable 'a' is declared but never used.", "Variable 'x' is used before declaration."] ∧
    ∃ d, Derivation.tokens d = Sample.warnedTokens ∧ Derivation.tree d = Sample.warnedProgram ∧
      ∃ loops unused undeclared, Advises d loops unused undeclared ∧
        loops.length + unused.length + undeclared.length = 3 := by
  have hmessages : (Lint.warnings [] Sample.warnedProgram).map (·.message) =
      ["Loop variable 'i' is never updated inside the loop (possible infinite loop).",
        "Variable 'a' is declared but never used.",
        "Variable 'x' is used before declaration."] := by decide +kernel
  obtain ⟨d, hd, htree, loops, unused, undeclared, hadvises, -⟩ :=
    warnings_listed Sample.scan_warned Sample.ofTokens_warned
  refine ⟨hmessages, d, hd, htree, loops, unused, undeclared, hadvises, ?_⟩
  have hlength := congrArg List.length hmessages
  rw [List.length_map, ← htree, hadvises.answer [], List.length_append, List.length_append,
    List.length_map, List.length_map] at hlength
  exact hlength

end Program

end Crafter
