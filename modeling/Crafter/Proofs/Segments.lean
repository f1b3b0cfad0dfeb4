import Crafter.Proofs.Operands
import Mathlib.Data.List.Forall2

/-! Expressions as texts. The four operators of arithmetic cut a text into
segments, and there is one way to cut it; the value of an expression is made up of
what its segments yield, and its fault is the one of the leftmost segment that has
one, whatever stands to the right of it. -/
namespace Crafter

namespace Arithmetic

def characters : List Char := ['+', '-', '*', '/']

def character : Arithmetic → Char
  | .add => '+'
  | .sub => '-'
  | .mul => '*'
  | .div => '/'

/-- The result in double precision, a quotient by zero included. -/
def apply : Arithmetic → Float → Float → Float
  | .add, x, y => x + y
  | .sub, x, y => x - y
  | .mul, x, y => x * y
  | .div, x, y => x / y

theorem ofChar?_character (o : Arithmetic) : ofChar? o.character = some o := by
  cases o <;> rfl

theorem character_of_ofChar? {c : Char} {o : Arithmetic} (h : ofChar? c = some o) :
    c = o.character := by
  unfold ofChar? at h
  split at h
  · cases h; rfl
  · cases h; rfl
  · cases h; rfl
  · cases h; rfl
  · cases h

theorem character_mem (o : Arithmetic) : o.character ∈ characters := by
  cases o <;> decide

theorem exists_of_mem {c : Char} (h : c ∈ characters) : ∃ o : Arithmetic, c = o.character := by
  simp only [characters, List.mem_cons, List.not_mem_nil, or_false] at h
  rcases h with rfl | rfl | rfl | rfl
  · exact ⟨.add, rfl⟩
  · exact ⟨.sub, rfl⟩
  · exact ⟨.mul, rfl⟩
  · exact ⟨.div, rfl⟩

theorem ofChar?_eq_none_iff (c : Char) : ofChar? c = none ↔ c ∉ characters := by
  constructor
  · intro hnone hmem
    obtain ⟨o, rfl⟩ := exists_of_mem hmem
    rw [ofChar?_character] at hnone
    cases hnone
  · intro hc
    cases hoperator : ofChar? c with
    | none => rfl
    | some o =>
      rw [character_of_ofChar? hoperator] at hc
      exact absurd o.character_mem hc

theorem result?_eq (o : Arithmetic) (x y : Float) :
    o.result? x y = if o = .div ∧ (y == 0) = true then none else some (o.apply x y) := by
  cases o <;> simp [result?, apply]

end Arithmetic

/-- A stretch of an expression with the operator before it. Before the first stretch
there is none. -/
structure Segment where
  operator : Option Arithmetic
  chars : List Char

def Segment.text (s : Segment) : List Char :=
  (s.operator.map Arithmetic.character).toList ++ s.chars

/-- The segments make up the text, and all operators of arithmetic stand between
them. -/
structure Cut (text : List Char) (segments : List Segment) : Prop where
  whole : segments.flatMap Segment.text = text
  plain : ∀ s ∈ segments, ∀ c ∈ s.chars, c ∉ Arithmetic.characters
  first : ∃ head tail, segments = ⟨none, head⟩ :: tail ∧ ∀ s ∈ tail, s.operator ≠ none

namespace Chain

def segments (chain : Chain) : List Segment :=
  ⟨none, chain.head⟩ :: chain.tail.map fun link => ⟨some link.1, link.2⟩

theorem ofText_character (o : Arithmetic) (text : List Char) :
    ofText (o.character :: text) = ⟨[], (o, (ofText text).head) :: (ofText text).tail⟩ := by
  rw [ofText, Arithmetic.ofChar?_character]

theorem ofText_cons_plain {c : Char} (hc : c ∉ Arithmetic.characters) (text : List Char) :
    ofText (c :: text) = ⟨c :: (ofText text).head, (ofText text).tail⟩ := by
  rw [ofText, (Arithmetic.ofChar?_eq_none_iff c).mpr hc]

theorem ofText_append_plain {plain : List Char} (h : ∀ c ∈ plain, c ∉ Arithmetic.characters)
    (text : List Char) :
    ofText (plain ++ text) = ⟨plain ++ (ofText text).head, (ofText text).tail⟩ := by
  induction plain with
  | nil => rfl
  | cons c plain ih =>
    have hplain := ih fun d hd => h d (List.mem_cons_of_mem c hd)
    rw [List.cons_append, ofText_cons_plain (h c List.mem_cons_self), hplain]
    rfl

theorem ofText_plain {plain : List Char} (h : ∀ c ∈ plain, c ∉ Arithmetic.characters) :
    ofText plain = ⟨plain, []⟩ := by
  have hplain := ofText_append_plain h []
  rwa [List.append_nil, ofText, List.append_nil] at hplain

theorem cut_ofText (text : List Char) : Cut text (ofText text).segments := by
  have first (chain : Chain) : ∃ head tail, chain.segments = ⟨none, head⟩ :: tail ∧
      ∀ s ∈ tail, s.operator ≠ none := by
    refine ⟨chain.head, _, rfl, ?_⟩
    intro s hs
    obtain ⟨link, _, rfl⟩ := List.mem_map.mp hs
    exact Option.some_ne_none link.1
  induction text with
  | nil => exact ⟨rfl, by simp [ofText, segments], first _⟩
  | cons c text ih =>
    by_cases hc : c ∈ Arithmetic.characters
    · obtain ⟨o, rfl⟩ := Arithmetic.exists_of_mem hc
      rw [ofText_character]
      refine ⟨?_, ?_, first _⟩
      · exact congrArg (o.character :: ·) ih.whole
      · intro s hs
        rcases List.mem_cons.mp hs with rfl | hs
        · intro d hd
          cases hd
        rcases List.mem_cons.mp hs with rfl | hs
        · exact ih.plain ⟨none, (ofText text).head⟩ List.mem_cons_self
        · exact ih.plain s (List.mem_cons_of_mem _ hs)
    · rw [ofText_cons_plain hc]
      refine ⟨?_, ?_, first _⟩
      · exact congrArg (c :: ·) ih.whole
      · intro s hs
        rcases List.mem_cons.mp hs with rfl | hs
        · intro d hd
          rcases List.mem_cons.mp hd with rfl | hd
          · exact hc
          · exact ih.plain ⟨none, (ofText text).head⟩ List.mem_cons_self d hd
        · exact ih.plain s (List.mem_cons_of_mem _ hs)

/-- The segments of a rejoined text are those that it was joined from. -/
theorem segments_ofText_append {head : List Char} {tail : List Segment}
    (hhead : ∀ c ∈ head, c ∉ Arithmetic.characters) (hoperator : ∀ s ∈ tail, s.operator ≠ none)
    (hplain : ∀ s ∈ tail, ∀ c ∈ s.chars, c ∉ Arithmetic.characters) :
    (ofText (head ++ tail.flatMap Segment.text)).segments = ⟨none, head⟩ :: tail := by
  induction tail generalizing head with
  | nil =>
    rw [List.flatMap_nil, List.append_nil, ofText_plain hhead]
    rfl
  | cons s tail ih =>
    obtain ⟨operator, chars⟩ := s
    cases operator with
    | none => exact absurd rfl (hoperator _ List.mem_cons_self)
    | some o =>
      have htail := ih (hplain _ List.mem_cons_self)
        (fun t ht => hoperator t (List.mem_cons_of_mem _ ht))
        (fun t ht => hplain t (List.mem_cons_of_mem _ ht))
      obtain ⟨hchars, hsegments⟩ := List.cons_eq_cons.mp htail
      have htext : (⟨some o, chars⟩ :: tail).flatMap Segment.text =
          o.character :: (chars ++ tail.flatMap Segment.text) := rfl
      rw [htext, ofText_append_plain hhead, ofText_character, List.append_nil, segments,
        List.map_cons, hsegments]
      exact congrArg (fun t : Segment => ⟨none, head⟩ :: ⟨some o, t.chars⟩ :: tail) hchars

end Chain

/-- A text is cut in one way. -/
theorem cut_iff (text : List Char) (segments : List Segment) :
    Cut text segments ↔ segments = (Chain.ofText text).segments := by
  constructor
  · rintro ⟨rfl, hplain, head, tail, rfl, hoperator⟩
    have hhead := hplain ⟨none, head⟩ List.mem_cons_self
    have htail : ∀ s ∈ tail, ∀ c ∈ s.chars, c ∉ Arithmetic.characters :=
      fun s hs => hplain s (List.mem_cons_of_mem _ hs)
    exact (Chain.segments_ofText_append hhead hoperator htail).symm
  · rintro rfl
    exact Chain.cut_ofText text

namespace Segment

/-- What is wrong with a segment by itself: what stands in it between blanks yields
nothing, or it yields a divisor of zero. Either sign of zero equals zero. -/
inductive Faults (env : Environment) (s : Segment) : Fault → Prop
  | operand {cause : Fault} (rejects : env.Rejects (Text.trim s.chars) cause) : Faults env s cause
  | zeroDivisor {y : Float} (division : s.operator = some .div)
      (yields : env.Yields (Text.trim s.chars) y) (zero : (y == 0) = true) :
      Faults env s .divisionByZero

/-- The leftmost segment with a fault has this one. -/
def FirstFault (env : Environment) (segments : List Segment) (cause : Fault) : Prop :=
  ∃ front s back, segments = front ++ s :: back ∧ (∀ t ∈ front, ∀ other, ¬ t.Faults env other) ∧
    s.Faults env cause

theorem firstFault_nil (env : Environment) (cause : Fault) : ¬ FirstFault env [] cause := by
  rintro ⟨front, s, back, h, -⟩
  cases front <;> cases h

/-- The leftmost fault is the one of the first segment, or it is among the others. -/
theorem firstFault_cons (env : Environment) (s : Segment) (segments : List Segment)
    (cause : Fault) : FirstFault env (s :: segments) cause ↔
      s.Faults env cause ∨ (∀ other, ¬ s.Faults env other) ∧ FirstFault env segments cause := by
  constructor
  · rintro ⟨front, t, back, h, hfront, hfaults⟩
    cases front with
    | nil =>
      cases h
      exact Or.inl hfaults
    | cons u front =>
      cases h
      refine Or.inr ⟨hfront s List.mem_cons_self, front, t, back, rfl, ?_, hfaults⟩
      exact fun v hv => hfront v (List.mem_cons_of_mem s hv)
  · rintro (hfaults | ⟨hs, front, t, back, rfl, hfront, hfaults⟩)
    · exact ⟨[], s, segments, rfl, nofun, hfaults⟩
    · refine ⟨s :: front, t, back, rfl, ?_, hfaults⟩
      intro u hu
      rcases List.mem_cons.mp hu with rfl | hu
      · exact hs
      · exact hfront u hu

/-- Of the variables only the one counts whose name is the segment. -/
theorem Faults.congr {env env' : Environment} {s : Segment} {cause : Fault}
    (h : env'.get? (String.ofList (Text.trim s.chars)) =
      env.get? (String.ofList (Text.trim s.chars))) (hfaults : s.Faults env cause) :
    s.Faults env' cause := by
  have hoperand : env'.operand (Text.trim s.chars) = env.operand (Text.trim s.chars) := by
    unfold Environment.operand
    rw [h]
  rcases hfaults with rejects | ⟨division, yields, zero⟩
  · apply Faults.operand
    rwa [← Environment.operand_eq_error_iff, hoperand, Environment.operand_eq_error_iff]
  · refine .zeroDivisor division ?_ zero
    rwa [← Environment.operand_eq_ok_iff, hoperand, Environment.operand_eq_ok_iff]

theorem faults_congr {env env' : Environment} {s : Segment}
    (h : env'.get? (String.ofList (Text.trim s.chars)) =
      env.get? (String.ofList (Text.trim s.chars))) (cause : Fault) :
    s.Faults env' cause ↔ s.Faults env cause :=
  ⟨.congr h.symm, .congr h⟩

theorem bind_eq_ok_iff {α β : Type} (result : Except Fault α) (next : α → Except Fault β)
    (v : β) : (result >>= next) = .ok v ↔ ∃ x, result = .ok x ∧ next x = .ok v := by
  constructor
  · intro h
    cases result with
    | error cause => cases h
    | ok x => exact ⟨x, rfl, h⟩
  · rintro ⟨x, rfl, hnext⟩
    exact hnext

/-- Where a first result fails exactly with the fault of the first segment, and what
is done with it fails exactly with the first fault of the others, the two together
fail with the first fault of all. -/
theorem bind_eq_error_iff {α β : Type} {env : Environment} {s : Segment}
    {segments : List Segment} {result : Except Fault α} {next : α → Except Fault β}
    {cause : Fault} (hresult : ∀ other, result = .error other ↔ s.Faults env other)
    (hnext : ∀ x, next x = .error cause ↔ FirstFault env segments cause) :
    (result >>= next) = .error cause ↔ FirstFault env (s :: segments) cause := by
  rw [firstFault_cons]
  cases result with
  | error other =>
    have hfaults : s.Faults env other := (hresult other).mp rfl
    constructor
    · intro h
      cases h
      exact Or.inl hfaults
    · rintro (h | ⟨hsound, -⟩)
      · have herror := (hresult cause).mpr h
        cases herror
        rfl
      · exact absurd hfaults (hsound other)
  | ok x =>
    have hsound : ∀ other, ¬ s.Faults env other := by
      intro other hfaults
      have herror := (hresult other).mpr hfaults
      cases herror
    constructor
    · intro h
      exact Or.inr ⟨hsound, (hnext x).mp h⟩
    · rintro (h | ⟨-, h⟩)
      · exact absurd h (hsound cause)
      · exact (hnext x).mpr h

end Segment

namespace Environment

variable {env : Environment}

theorem faults_first_iff (chars : List Char) (cause : Fault) :
    Segment.Faults env ⟨none, chars⟩ cause ↔ env.operand (Text.trim chars) = .error cause := by
  rw [operand_eq_error_iff]
  constructor
  · rintro (rejects | ⟨division, -, -⟩)
    · exact rejects
    · cases division
  · exact fun rejects => .operand rejects

theorem applyLink_of_yields {link : Arithmetic × List Char} {y : Float}
    (h : env.Yields (Text.trim link.2) y) (x : Float) : env.applyLink x link =
      if link.1 = .div ∧ (y == 0) = true then .error .divisionByZero
      else .ok (link.1.apply x y) := by
  unfold applyLink
  rw [operand_of_yields h]
  dsimp only
  rw [Arithmetic.result?_eq]
  by_cases hzero : link.1 = .div ∧ (y == 0) = true
  · rw [if_pos hzero, if_pos hzero]
  · rw [if_neg hzero, if_neg hzero]

theorem applyLink_of_rejects {link : Arithmetic × List Char} {cause : Fault}
    (h : env.Rejects (Text.trim link.2) cause) (x : Float) :
    env.applyLink x link = .error cause := by
  unfold applyLink
  rw [operand_of_rejects h]

theorem applyLink_eq_ok_iff (x z : Float) (link : Arithmetic × List Char) :
    env.applyLink x link = .ok z ↔ ∃ y, env.Yields (Text.trim link.2) y ∧
      ¬ (link.1 = .div ∧ (y == 0) = true) ∧ z = link.1.apply x y := by
  constructor
  · intro h
    rcases env.yields_or_rejects (Text.trim link.2) with ⟨y, hy⟩ | ⟨cause, hcause⟩
    · rw [applyLink_of_yields hy] at h
      split at h
      · cases h
      · next hsound =>
        cases h
        exact ⟨y, hy, hsound, rfl⟩
    · rw [applyLink_of_rejects hcause] at h
      cases h
  · rintro ⟨y, hy, hsound, rfl⟩
    rw [applyLink_of_yields hy, if_neg hsound]

/-- What stands to the left has no part in the fault of a link. -/
theorem applyLink_eq_error_iff (x : Float) (link : Arithmetic × List Char) (cause : Fault) :
    env.applyLink x link = .error cause ↔ Segment.Faults env ⟨some link.1, link.2⟩ cause := by
  constructor
  · intro h
    rcases env.yields_or_rejects (Text.trim link.2) with ⟨y, hy⟩ | ⟨other, hother⟩
    · rw [applyLink_of_yields hy] at h
      split at h
      · next hzero =>
        cases h
        exact .zeroDivisor (congrArg some hzero.1) hy hzero.2
      · cases h
    · rw [applyLink_of_rejects hother] at h
      cases h
      exact .operand hother
  · rintro (rejects | ⟨division, yields, zero⟩)
    · exact applyLink_of_rejects rejects x
    · rw [applyLink_of_yields yields, if_pos ⟨Option.some.inj division, zero⟩]

theorem links_eq_error_iff (links : List (Arithmetic × List Char)) (x : Float) (cause : Fault) :
    links.foldlM env.applyLink x = .error cause ↔
      Segment.FirstFault env (links.map fun link => ⟨some link.1, link.2⟩) cause := by
  induction links generalizing x with
  | nil =>
    refine ⟨nofun, fun h => ?_⟩
    exact absurd h (Segment.firstFault_nil env cause)
  | cons link links ih =>
    rw [List.foldlM_cons, List.map_cons]
    exact Segment.bind_eq_error_iff (applyLink_eq_error_iff x link) ih

theorem eval_eq (env : Environment) (expression : String) : env.eval expression =
    env.operand (Text.trim (Chain.ofText expression.toList).head) >>= fun x =>
      (Chain.ofText expression.toList).tail.foldlM env.applyLink x := by
  unfold eval
  dsimp only
  cases env.operand (Text.trim (Chain.ofText expression.toList).head) <;> rfl

/-- The fault of an expression is the one of its leftmost segment that has one. -/
theorem eval_eq_error_iff (env : Environment) (expression : String) (cause : Fault) :
    env.eval expression = .error cause ↔
      ∃ segments, Cut expression.toList segments ∧ Segment.FirstFault env segments cause := by
  have hsegments : (∃ segments, Cut expression.toList segments ∧
      Segment.FirstFault env segments cause) ↔
      Segment.FirstFault env (Chain.ofText expression.toList).segments cause := by
    simp only [cut_iff, exists_eq_left]
  have hfirst (other : Fault) :
      env.operand (Text.trim (Chain.ofText expression.toList).head) = .error other ↔
        Segment.Faults env ⟨none, (Chain.ofText expression.toList).head⟩ other :=
    (faults_first_iff _ other).symm
  rw [hsegments, eval_eq]
  exact Segment.bind_eq_error_iff hfirst fun x => links_eq_error_iff _ x cause

/-- Neither the segments after a fault nor the variables that only they name have any
part in it. -/
theorem eval_of_front {expression : String} {front back : List Segment} {s : Segment}
    {cause : Fault} (hfront : ∀ t ∈ front, ∀ other, ¬ t.Faults env other)
    (hfaults : s.Faults env cause) {env' : Environment}
    (hcut : Cut expression.toList (front ++ s :: back))
    (hsame : ∀ t ∈ front ++ [s], env'.get? (String.ofList (Text.trim t.chars)) =
      env.get? (String.ofList (Text.trim t.chars))) :
    env'.eval expression = .error cause := by
  rw [eval_eq_error_iff]
  refine ⟨_, hcut, front, s, back, rfl, ?_, ?_⟩
  · intro t ht other
    rw [Segment.faults_congr (hsame t (List.mem_append_left [s] ht))]
    exact hfront t ht other
  · have hs : s ∈ front ++ [s] := List.mem_append_right front List.mem_cons_self
    exact (Segment.faults_congr (hsame s hs) cause).mpr hfaults

/-- The operators of a chain with what their right operands yield. -/
def Operands (env : Environment) :
    List (Arithmetic × List Char) → List (Arithmetic × Float) → Prop :=
  List.Forall₂ fun link operand => operand.1 = link.1 ∧ env.Yields (Text.trim link.2) operand.2

/-- Whether none of the operands is a divisor of zero. -/
def Divides (operands : List (Arithmetic × Float)) : Prop :=
  ∀ operand ∈ operands, operand.1 = .div → (operand.2 == 0) = false

/-- The operators applied one after the other, from left to right. -/
def total (x : Float) (operands : List (Arithmetic × Float)) : Float :=
  operands.foldl (fun x operand => operand.1.apply x operand.2) x

theorem divides_cons (operand : Arithmetic × Float) (operands : List (Arithmetic × Float)) :
    Divides (operand :: operands) ↔
      ¬ (operand.1 = .div ∧ (operand.2 == 0) = true) ∧ Divides operands := by
  unfold Divides
  rw [List.forall_mem_cons, not_and, Bool.not_eq_true]

theorem links_eq_ok_iff (links : List (Arithmetic × List Char)) (x v : Float) :
    links.foldlM env.applyLink x = .ok v ↔
      ∃ operands, env.Operands links operands ∧ Divides operands ∧ v = total x operands := by
  induction links generalizing x with
  | nil =>
    constructor
    · rintro ⟨⟩
      exact ⟨[], .nil, nofun, rfl⟩
    · rintro ⟨operands, hoperands, -, rfl⟩
      cases hoperands
      rfl
  | cons link links ih =>
    rw [List.foldlM_cons, Segment.bind_eq_ok_iff]
    constructor
    · rintro ⟨z, hlink, hrest⟩
      obtain ⟨y, hy, hsound, rfl⟩ := (applyLink_eq_ok_iff x z link).mp hlink
      obtain ⟨operands, hoperands, hdivides, rfl⟩ := (ih _).mp hrest
      have hall : Divides ((link.1, y) :: operands) := (divides_cons _ _).mpr ⟨hsound, hdivides⟩
      exact ⟨(link.1, y) :: operands, .cons ⟨rfl, hy⟩ hoperands, hall, rfl⟩
    · rintro ⟨operands, hoperands, hdivides, rfl⟩
      cases hoperands with
      | @cons _ operand _ operands hoperand hoperands =>
        obtain ⟨o, y⟩ := operand
        obtain ⟨rfl, hy⟩ := hoperand
        obtain ⟨hsound, hdivides⟩ := (divides_cons _ _).mp hdivides
        have hlink : env.applyLink x link = .ok (link.1.apply x y) :=
          (applyLink_eq_ok_iff x _ link).mpr ⟨y, hy, hsound, rfl⟩
        exact ⟨_, hlink, (ih _).mpr ⟨operands, hoperands, hdivides, rfl⟩⟩

theorem eval_eq_ok_iff (env : Environment) (expression : String) (v : Float) :
    env.eval expression = .ok v ↔ ∃ x operands,
      env.Yields (Text.trim (Chain.ofText expression.toList).head) x ∧
      env.Operands (Chain.ofText expression.toList).tail operands ∧ Divides operands ∧
      v = total x operands := by
  rw [eval_eq, Segment.bind_eq_ok_iff]
  constructor
  · rintro ⟨x, hx, hlinks⟩
    obtain ⟨operands, hoperands⟩ := (links_eq_ok_iff _ x v).mp hlinks
    exact ⟨x, operands, (operand_eq_ok_iff env _ x).mp hx, hoperands⟩
  · rintro ⟨x, operands, hx, hoperands⟩
    exact ⟨x, operand_of_yields hx, (links_eq_ok_iff _ x v).mpr ⟨operands, hoperands⟩⟩

end Environment

end Crafter
