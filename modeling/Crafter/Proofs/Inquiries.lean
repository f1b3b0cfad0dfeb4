import Crafter.Proofs.Words

/-! Which variables an expression reads. Its evaluation is laid out as an inquiry, which
asks for one variable after the other and goes on by what it is told; answered from an
environment, it comes to the value that the expression has there. It asks for the words
of the expression from left to right, so that the value depends on the variables of
these names, and on no others. -/
namespace Crafter

/-- What is left to do for a result: nothing, or to ask for a variable and go on with
its value, or with none. -/
inductive Inquiry (α : Type) where
  | found (x : α)
  | failed (cause : Fault)
  | ask (name : String) (next : Option Float → Inquiry α)

namespace Inquiry

variable {α β : Type}

def andThen : Inquiry α → (α → Inquiry β) → Inquiry β
  | .found x, next => next x
  | .failed cause, _ => .failed cause
  | .ask name after, next => .ask name fun value => (after value).andThen next

/-- What comes out if the variables have the values of the environment. -/
def result (env : Environment) : Inquiry α → Except Fault α
  | .found x => .ok x
  | .failed cause => .error cause
  | .ask name next => (next (env.get? name)).result env

/-- The names that are asked for on the way, each as often as it is. -/
def asked (env : Environment) : Inquiry α → List String
  | .found _ | .failed _ => []
  | .ask name next => name :: (next (env.get? name)).asked env

/-- The value of a variable, which has to have one. -/
def read (name : String) : Inquiry Float :=
  .ask name fun
    | some x => .found x
    | none => .failed (.undefined name)

/-- Working out one operand. -/
def ofOperand (text : List Char) : Inquiry Float :=
  match Number.ofDigits? text with
  | some x => .found x
  | none =>
    if text = [] then .failed .missingOperand
    else if text.all Char.isAlpha then .read (String.ofList text)
    else .failed (.invalidOperand (String.ofList text))

def ofLink (x : Float) (link : Arithmetic × List Char) : Inquiry Float :=
  (ofOperand (Text.trim link.2)).andThen fun y =>
    match link.1.result? x y with
    | none => .failed .divisionByZero
    | some z => .found z

def ofLinks : List (Arithmetic × List Char) → Float → Inquiry Float
  | [], x => .found x
  | link :: links, x => (ofLink x link).andThen (ofLinks links)

/-- The evaluation of an expression, with the values of its variables left open. -/
def ofExpression (expression : String) : Inquiry Float :=
  let chain := Chain.ofText expression.toList
  (ofOperand (Text.trim chain.head)).andThen (ofLinks chain.tail)

variable {env env' : Environment}

theorem result_andThen (env : Environment) (inquiry : Inquiry α) (next : α → Inquiry β) :
    (inquiry.andThen next).result env = inquiry.result env >>= fun x => (next x).result env := by
  induction inquiry with
  | found => rfl
  | failed => rfl
  | ask name after ih => exact ih (env.get? name)

theorem asked_andThen_of_ok {inquiry : Inquiry α} {x : α} (h : inquiry.result env = .ok x)
    (next : α → Inquiry β) :
    (inquiry.andThen next).asked env = inquiry.asked env ++ (next x).asked env := by
  induction inquiry with
  | found =>
    cases h
    rfl
  | failed => cases h
  | ask name after ih => exact congrArg (name :: ·) (ih (env.get? name) h)

theorem asked_andThen_of_error {inquiry : Inquiry α} {cause : Fault}
    (h : inquiry.result env = .error cause) (next : α → Inquiry β) :
    (inquiry.andThen next).asked env = inquiry.asked env := by
  induction inquiry with
  | found => cases h
  | failed => rfl
  | ask name after ih => exact congrArg (name :: ·) (ih (env.get? name) h)

/-! The inquiry comes to what the evaluation comes to. -/

theorem result_read (env : Environment) (name : String) :
    (read name).result env = (env.get? name).elim (.error (.undefined name)) .ok := by
  unfold read result
  cases env.get? name <;> rfl

theorem asked_read (env : Environment) (name : String) : (read name).asked env = [name] := by
  unfold read asked
  cases env.get? name <;> rfl

theorem result_ofOperand (env : Environment) (text : List Char) :
    (ofOperand text).result env = env.operand text := by
  unfold ofOperand Environment.operand
  cases Number.ofDigits? text with
  | some x => rfl
  | none =>
    dsimp only
    by_cases hempty : text = []
    · rw [if_pos hempty, if_pos hempty]
      rfl
    · rw [if_neg hempty, if_neg hempty]
      by_cases halpha : text.all Char.isAlpha = true
      · rw [if_pos halpha, if_pos halpha, result_read]
        cases env.get? (String.ofList text) <;> rfl
      · rw [if_neg halpha, if_neg halpha]
        rfl

theorem result_ofLink (env : Environment) (x : Float) (link : Arithmetic × List Char) :
    (ofLink x link).result env = env.applyLink x link := by
  unfold ofLink Environment.applyLink
  rw [result_andThen, result_ofOperand]
  cases env.operand (Text.trim link.2) with
  | error cause => rfl
  | ok y =>
    dsimp only [bind, Except.bind]
    cases link.1.result? x y <;> rfl

theorem result_ofLinks (env : Environment) (links : List (Arithmetic × List Char)) (x : Float) :
    (ofLinks links x).result env = links.foldlM env.applyLink x := by
  induction links generalizing x with
  | nil => rfl
  | cons link links ih =>
    rw [ofLinks, result_andThen, result_ofLink, List.foldlM_cons]
    exact congrArg (env.applyLink x link >>= ·) (funext ih)

theorem result_ofExpression (env : Environment) (expression : String) :
    (ofExpression expression).result env = env.eval expression := by
  unfold ofExpression Environment.eval
  dsimp only
  rw [result_andThen, result_ofOperand]
  cases env.operand (Text.trim (Chain.ofText expression.toList).head) with
  | error cause => rfl
  | ok x => exact result_ofLinks env (Chain.ofText expression.toList).tail x

/-- Only the variables that are asked for have a say in the result. -/
theorem result_congr {inquiry : Inquiry α}
    (h : ∀ name ∈ inquiry.asked env, env.get? name = env'.get? name) :
    inquiry.result env = inquiry.result env' := by
  induction inquiry with
  | found => rfl
  | failed => rfl
  | ask name next ih =>
    have hvalue : env.get? name = env'.get? name := h name List.mem_cons_self
    have hnext := ih (env.get? name) fun other hother => h other (List.mem_cons_of_mem name hother)
    change (next (env.get? name)).result env = (next (env'.get? name)).result env'
    rw [← hvalue, hnext]

/-- The inquiry asks for the given names one after the other. It gets to all of them if
there is a result, and ends at the first one without a value. -/
structure InOrder (names : List String) (inquiry : Inquiry α) : Prop where
  front : ∀ env : Environment, inquiry.asked env <+: names
  whole : ∀ (env : Environment) (x : α), inquiry.result env = .ok x → inquiry.asked env = names
  unbound : ∀ (env : Environment) (name : String),
    inquiry.result env = .error (.undefined name) ↔
      name ∈ inquiry.asked env ∧ env.get? name = none

namespace InOrder

variable {names more : List String}

theorem of_found (x : α) : (found x).InOrder [] where
  front _ := List.nil_prefix
  whole _ _ _ := rfl
  unbound env name := by
    constructor
    · rintro ⟨⟩
    · rintro ⟨⟨⟩, _⟩

/-- A fault that has nothing to do with variables may come before any names. -/
theorem of_failed {cause : Fault} (other : ∀ name, cause ≠ .undefined name) :
    (failed cause : Inquiry α).InOrder names where
  front _ := List.nil_prefix
  whole _ _ h := by cases h
  unbound env name := by
    constructor
    · intro h
      exact absurd (Except.error.inj h) (other name)
    · rintro ⟨⟨⟩, _⟩

theorem of_read (name : String) : (read name).InOrder [name] where
  front env := by simp only [asked_read, List.prefix_rfl]
  whole env _ _ := asked_read env name
  unbound env other := by
    rw [result_read, asked_read]
    cases hvalue : env.get? name with
    | none =>
      constructor
      · intro h
        cases h
        exact ⟨List.mem_cons_self, hvalue⟩
      · rintro ⟨hother, -⟩
        rw [List.mem_singleton.mp hother, Option.elim_none]
    | some x =>
      constructor
      · rintro ⟨⟩
      · rintro ⟨hother, hnone⟩
        rw [List.mem_singleton.mp hother, hvalue] at hnone
        cases hnone

theorem andThen {inquiry : Inquiry α} {next : α → Inquiry β} (h : inquiry.InOrder names)
    (hnext : ∀ x, (next x).InOrder more) : (inquiry.andThen next).InOrder (names ++ more) where
  front env := by
    cases hresult : inquiry.result env with
    | error cause =>
      rw [asked_andThen_of_error hresult]
      exact (h.front env).trans (List.prefix_append names more)
    | ok x =>
      rw [asked_andThen_of_ok hresult, h.whole env x hresult]
      exact (List.prefix_append_right_inj names).mpr ((hnext x).front env)
  whole env y hy := by
    rw [result_andThen] at hy
    cases hresult : inquiry.result env with
    | error cause =>
      rw [hresult] at hy
      cases hy
    | ok x =>
      rw [hresult] at hy
      rw [asked_andThen_of_ok hresult, h.whole env x hresult, (hnext x).whole env y hy]
  unbound env name := by
    rw [result_andThen]
    cases hresult : inquiry.result env with
    | error cause =>
      rw [asked_andThen_of_error hresult, ← h.unbound, hresult]
      constructor
      · intro hcause
        cases hcause
        rfl
      · intro hcause
        cases hcause
        rfl
    | ok x =>
      have hbound : ¬ (name ∈ inquiry.asked env ∧ env.get? name = none) := by
        rw [← h.unbound, hresult]
        exact nofun
      rw [asked_andThen_of_ok hresult, List.mem_append]
      change (next x).result env = _ ↔ _
      rw [(hnext x).unbound]
      constructor
      · rintro ⟨hname, hnone⟩
        exact ⟨Or.inr hname, hnone⟩
      · rintro ⟨hname | hname, hnone⟩
        · exact absurd ⟨hname, hnone⟩ hbound
        · exact ⟨hname, hnone⟩

end InOrder

open Lint

/-- What is asked for is a word of the operand, and the only one. -/
theorem inOrder_ofOperand (text : List Char) : (ofOperand text).InOrder (words text) := by
  unfold ofOperand
  cases hdigits : Number.ofDigits? text with
  | some x =>
    rw [words_of_digits hdigits]
    exact .of_found x
  | none =>
    dsimp only
    by_cases hempty : text = []
    · rw [if_pos hempty]
      exact .of_failed nofun
    · rw [if_neg hempty]
      by_cases halpha : text.all Char.isAlpha = true
      · rw [if_pos halpha, words_letters hempty (List.all_eq_true.mp halpha)]
        exact .of_read (String.ofList text)
      · rw [if_neg halpha]
        exact .of_failed nofun

theorem inOrder_ofLink (x : Float) (link : Arithmetic × List Char) :
    (ofLink x link).InOrder (words link.2) := by
  have hresult (y : Float) : (match link.1.result? x y with
      | none => .failed .divisionByZero
      | some z => .found z : Inquiry Float).InOrder [] := by
    cases link.1.result? x y with
    | none => exact .of_failed nofun
    | some z => exact .of_found z
  have h := (inOrder_ofOperand (Text.trim link.2)).andThen hresult
  rwa [words_trim, List.append_nil] at h

theorem inOrder_ofLinks (links : List (Arithmetic × List Char)) (x : Float) :
    (ofLinks links x).InOrder (links.flatMap fun link => words link.2) := by
  induction links generalizing x with
  | nil => exact .of_found x
  | cons link links ih => exact (inOrder_ofLink x link).andThen ih

/-- The words of an expression are asked for from left to right. -/
theorem inOrder_ofExpression (expression : String) :
    (ofExpression expression).InOrder (words expression.toList) := by
  have h := (inOrder_ofOperand (Text.trim (Chain.ofText expression.toList).head)).andThen
    (inOrder_ofLinks (Chain.ofText expression.toList).tail)
  rwa [words_trim, ← words_eq_flatMap] at h

end Inquiry

/-- The result depends on the variables of the given names and on no others. It is
a fault if one of them has no value, and if the fault is that a variable has
none, this is one of them. -/
structure Reads {α : Type} (names : List String) (result : Environment → Except Fault α) :
    Prop where
  congr : ∀ env env' : Environment, (∀ name ∈ names, env.get? name = env'.get? name) →
    result env = result env'
  needs : ∀ env : Environment, ∀ name ∈ names, env.get? name = none →
    ∃ cause, result env = .error cause
  blames : ∀ (env : Environment) (name : String), result env = .error (.undefined name) →
    name ∈ names ∧ env.get? name = none

namespace Reads

variable {α β : Type} {names more : List String}

theorem of_value (x : α) : Reads [] fun _ => .ok x where
  congr _ _ _ := rfl
  needs _ _ := nofun
  blames _ _ := nofun

/-- A result that an inquiry comes to reads what is asked for in it. -/
theorem of_inOrder {inquiry : Inquiry α} (h : inquiry.InOrder names) :
    Reads names fun env => inquiry.result env where
  congr env env' heq :=
    Inquiry.result_congr fun name hname => heq name ((h.front env).subset hname)
  needs env name hname hnone := by
    cases hresult : inquiry.result env with
    | error cause => exact ⟨cause, rfl⟩
    | ok x =>
      rw [← h.whole env x hresult] at hname
      have hcause := (h.unbound env name).mpr ⟨hname, hnone⟩
      rw [hresult] at hcause
      cases hcause
  blames env name hblame := by
    obtain ⟨hname, hnone⟩ := (h.unbound env name).mp hblame
    exact ⟨(h.front env).subset hname, hnone⟩

/-- What goes on with a result reads what the result reads, and what it reads
itself. -/
theorem bind {first : Environment → Except Fault α} {next : Environment → α → Except Fault β}
    (h : Reads names first) (hnext : ∀ x, Reads more fun env => next env x) :
    Reads (names ++ more) fun env => first env >>= next env where
  congr env env' heq := by
    have hfirst : first env = first env' :=
      h.congr env env' fun name hname => heq name (List.mem_append_left more hname)
    rw [hfirst]
    cases first env' with
    | error cause => rfl
    | ok x =>
      exact (hnext x).congr env env' fun name hname => heq name (List.mem_append_right names hname)
  needs env name hname hnone := by
    cases hfirst : first env with
    | error cause => exact ⟨cause, rfl⟩
    | ok x =>
      rcases List.mem_append.mp hname with hname | hname
      · obtain ⟨cause, hcause⟩ := h.needs env name hname hnone
        rw [hfirst] at hcause
        cases hcause
      · exact (hnext x).needs env name hname hnone
  blames env name hblame := by
    cases hfirst : first env with
    | error cause =>
      rw [hfirst] at hblame
      cases hblame
      exact (h.blames env name hfirst).imp_left (List.mem_append_left more)
    | ok x =>
      rw [hfirst] at hblame
      exact ((hnext x).blames env name hblame).imp_left (List.mem_append_right names)

end Reads

namespace Environment

open Lint

/-- An operand that is a name is read; any other is a number, or a fault. -/
theorem reads_operand (text : List Char) : Reads (words text) fun env => env.operand text := by
  have h := Reads.of_inOrder (Inquiry.inOrder_ofOperand text)
  simpa only [Inquiry.result_ofOperand] using h

/-- The value of an expression depends on the variables that are words of it. -/
theorem reads_eval (expression : String) :
    Reads (words expression.toList) fun env => env.eval expression := by
  have h := Reads.of_inOrder (Inquiry.inOrder_ofExpression expression)
  simpa only [Inquiry.result_ofExpression] using h

end Environment

end Crafter
