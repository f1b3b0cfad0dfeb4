import Crafter.Proofs.Renaming
import Crafter.Proofs.Stepping

/-! Programs with other names at other places. What the parser does with a token
depends on its class, and on the spelling of operators only; so a list of tokens
and its translation are read step by step in the same way, to the same end. -/
namespace Crafter

/-- What tokens become: other names, other places for where they start and where
they end, and another file. -/
structure Translation where
  names : Renaming
  start : Position → Position
  stop : Span → Position
  file : String → String

namespace Translation

/-- Nothing but the places changes. -/
def moving (f : Position → Position) : Translation := ⟨.refl, f, fun s => f s.stop, id⟩

/-- Nothing but the file changes. -/
def inFile (file : String) : Translation := ⟨.refl, id, (·.stop), fun _ => file⟩

/-- The translation, and then the places moved once more. -/
def moved (τ : Translation) (f : Position → Position) : Translation :=
  ⟨τ.names, fun p => f (τ.start p), fun s => f (τ.stop s), τ.file⟩

end Translation

/-- The token under the new name and at the new place. The text of a string stays
as it is, like that of a keyword. -/
def Token.translate (τ : Translation) (t : Token) : Token where
  lexeme := t.lexeme.rename τ.names.text
  span := {
    file := τ.file t.span.file
    start := τ.start t.span.start
    stop := τ.stop t.span
    text := if t.lexeme.inExpression then τ.names.text t.span.text else t.span.text }

def Condition.translate (τ : Translation) (c : Condition) : Condition :=
  ⟨c.left.translate τ, c.operator, c.right.translate τ⟩

mutual

/-- The statement, and all that is inside it, with its names and places translated. -/
def Statement.translate (τ : Translation) : Statement → Statement
  | .declaration name value loc =>
    .declaration (τ.names.text name) (τ.names.text value) (τ.start loc)
  | .printText contents loc => .printText contents (τ.start loc)
  | .printValue value loc => .printValue (τ.names.text value) (τ.start loc)
  | .conditional test body alternative loc =>
    .conditional (test.translate τ) (Program.translate τ body) (Program.translate τ alternative)
      (τ.start loc)
  | .loop test body loc => .loop (test.translate τ) (Program.translate τ body) (τ.start loc)
  | .foreign name body loc => .foreign name (Program.translate τ body) (τ.start loc)
  | .absent part => .absent part

def Program.translate (τ : Translation) : List Statement → List Statement
  | [] => []
  | s :: rest => s.translate τ :: Program.translate τ rest

end

theorem Program.translate_eq_map (τ : Translation) (p : List Statement) :
    Program.translate τ p = p.map (Statement.translate τ) := by
  induction p with
  | nil => rw [Program.translate, List.map_nil]
  | cons s p ih => rw [Program.translate, List.map_cons, ih]

theorem Program.translate_reverse (τ : Translation) (p : List Statement) :
    Program.translate τ p.reverse = (Program.translate τ p).reverse := by
  rw [translate_eq_map, translate_eq_map, List.map_reverse]

def ExpressionOwner.translate (τ : Translation) : ExpressionOwner → ExpressionOwner
  | .declaration keyword name target =>
    .declaration (keyword.translate τ) (τ.names.text name) (target.translate τ)
  | .print keyword => .print (keyword.translate τ)

def ComparisonOwner.translate (τ : Translation) : ComparisonOwner → ComparisonOwner
  | .conditional keyword => .conditional (keyword.translate τ)
  | .loop keyword => .loop (keyword.translate τ)

def BlockOwner.translate (τ : Translation) : BlockOwner → BlockOwner
  | .consequence test loc => .consequence (test.translate τ) (τ.start loc)
  | .alternative test body loc =>
    .alternative (test.translate τ) (Program.translate τ body) (τ.start loc)
  | .loop test loc => .loop (test.translate τ) (τ.start loc)

def Mode.translate (τ : Translation) : Mode → Mode
  | .between => .between
  | .declared keyword => .declared (keyword.translate τ)
  | .named keyword name target =>
    .named (keyword.translate τ) (τ.names.text name) (target.translate τ)
  | .printing keyword => .printing (keyword.translate τ)
  | .expression owner parts => .expression (owner.translate τ) (parts.map τ.names.text)
  | .compared owner => .compared (owner.translate τ)
  | .related owner left => .related (owner.translate τ) (left.translate τ)
  | .closing owner left operator => .closing (owner.translate τ) (left.translate τ) operator
  | .opening owner => .opening (owner.translate τ)
  | .decided test body loc => .decided (test.translate τ) (Program.translate τ body) (τ.start loc)

def OpenBlock.translate (τ : Translation) (block : OpenBlock) : OpenBlock :=
  ⟨block.owner.translate τ, block.opener.translate τ, Program.translate τ block.before⟩

/-- What the parser remembers of the translated tokens. -/
def Reading.translate (τ : Translation) (r : Reading) : Reading where
  mode := r.mode.translate τ
  blocks := r.blocks.map (OpenBlock.translate τ)
  complete := Program.translate τ r.complete
  last := r.last.map (Token.translate τ)

/-- The same fault, told of a token under its new name. -/
inductive SyntaxFault.Follows (ρ : Renaming) : SyntaxFault → SyntaxFault → Prop where
  | same (fault : SyntaxFault) : Follows ρ fault fault
  | strayToken (lexeme : Lexeme) :
      Follows ρ (.strayToken lexeme.value) (.strayToken (lexeme.rename ρ.text).value)
  | wrongToken (lexeme : Lexeme) (expected : Expected) :
      Follows ρ (.wrongToken lexeme.value expected)
        (.wrongToken (lexeme.rename ρ.text).value expected)

@[simp] theorem Lexeme.rename_refl (lexeme : Lexeme) :
    lexeme.rename Renaming.refl.text = lexeme := by
  cases lexeme with
  | identifier name => exact congrArg Lexeme.identifier (Renaming.text_refl name)
  | _ => rfl

/-! Where no name changes, translations are told by the places and the file. -/

section

variable {τ : Translation}

theorem Token.translate_of_refl (hnames : τ.names = .refl) (t : Token) :
    t.translate τ = ⟨t.lexeme, τ.file t.span.file, τ.start t.span.start, τ.stop t.span,
      t.span.text⟩ := by
  unfold translate
  rw [hnames, Lexeme.rename_refl, Renaming.text_refl, ite_self]

theorem Token.translate_moved (f : Position → Position) (t : Token) :
    (t.translate τ).translate (.moving f) = t.translate (τ.moved f) := by
  rw [translate_of_refl rfl]
  rfl

mutual

theorem Statement.translate_moved (f : Position → Position) : ∀ s : Statement,
    (s.translate τ).translate (.moving f) = s.translate (τ.moved f)
  | .declaration .. | .printText .. | .printValue .. => by
    simp only [Statement.translate, Translation.moving, Renaming.text_refl]
    rfl
  | .conditional test body alternative loc => by
    rw [Statement.translate, Statement.translate, Statement.translate,
      Program.translate_moved f body, Program.translate_moved f alternative, Condition.translate]
    simp only [Condition.translate, Token.translate_moved]
    rfl
  | .loop test body loc => by
    rw [Statement.translate, Statement.translate, Statement.translate,
      Program.translate_moved f body]
    simp only [Condition.translate, Token.translate_moved]
    rfl
  | .foreign name body loc => by
    rw [Statement.translate, Statement.translate, Statement.translate,
      Program.translate_moved f body]
    rfl
  | .absent part => by
    rw [Statement.translate, Statement.translate, Statement.translate]

theorem Program.translate_moved (f : Position → Position) : ∀ p : List Statement,
    Program.translate (.moving f) (Program.translate τ p) = Program.translate (τ.moved f) p
  | [] => by
    rw [Program.translate, Program.translate, Program.translate]
  | s :: rest => by
    rw [Program.translate, Program.translate, Program.translate, Statement.translate_moved f s,
      Program.translate_moved f rest]

end

theorem Token.translate_id (t : Token) : t.translate (.moving id) = t :=
  translate_of_refl rfl t

mutual

theorem Statement.translate_id : ∀ s : Statement, s.translate (.moving id) = s
  | .declaration .. | .printText .. | .printValue .. => by
    simp only [Statement.translate, Translation.moving, Renaming.text_refl, id]
  | .conditional test body alternative loc => by
    rw [Statement.translate, Program.translate_id body, Program.translate_id alternative]
    simp only [Condition.translate, Token.translate_id]
    rfl
  | .loop test body loc => by
    rw [Statement.translate, Program.translate_id body]
    simp only [Condition.translate, Token.translate_id]
    rfl
  | .foreign name body loc => by
    rw [Statement.translate, Program.translate_id body]
    rfl
  | .absent part => by
    rw [Statement.translate]

theorem Program.translate_id : ∀ p : List Statement, Program.translate (.moving id) p = p
  | [] => by
    rw [Program.translate]
  | s :: rest => by
    rw [Program.translate, Statement.translate_id s, Program.translate_id rest]

end

end

theorem SyntaxFault.eq_of_follows_refl {fault fault' : SyntaxFault}
    (h : fault.Follows .refl fault') : fault' = fault := by
  cases h with
  | same => rfl
  | strayToken | wrongToken => rw [Lexeme.rename_refl]

/-- The same fault, at the token that became of the one at fault. -/
inductive SyntaxError.Follows (τ : Translation) : SyntaxError → SyntaxError → Prop where
  | atToken (t : Token) {fault fault' : SyntaxFault} (h : fault.Follows τ.names fault') :
      Follows τ (.atToken fault t) (.atToken fault' (t.translate τ))
  | atStart (fault : SyntaxFault) :
      Follows τ (.atPosition fault .first) (.atPosition fault .first)

theorem SyntaxError.Follows.fault {τ : Translation} {e e' : SyntaxError} (h : e.Follows τ e') :
    e.fault.Follows τ.names e'.fault := by
  cases h with
  | atToken t h => exact h
  | atStart fault => exact .same fault

theorem SyntaxError.eq_of_follows_inFile {file : String} {e e' : SyntaxError}
    (h : e.Follows (.inFile file) e') : e' = e := by
  cases h with
  | atToken t h =>
    rw [SyntaxFault.eq_of_follows_refl h]
    rfl
  | atStart => rfl

/-- The second result is the translation of the first one: `f` of its value, or an
error that says the same. -/
inductive Translation.Carries (τ : Translation) {α β : Type} (f : α → β) :
    Except SyntaxError α → Except SyntaxError β → Prop where
  | ok (a : α) : Carries τ f (.ok a) (.ok (f a))
  | error {e e' : SyntaxError} (h : e.Follows τ e') : Carries τ f (.error e) (.error e')

namespace Translation

variable {τ : Translation}

theorem Carries.bind {α β γ δ : Type} {f : α → β} {g : γ → δ} {x : Except SyntaxError α}
    {y : Except SyntaxError β} {next : α → Except SyntaxError γ}
    {next' : β → Except SyntaxError δ} (h : τ.Carries f x y)
    (hnext : ∀ a, x = .ok a → τ.Carries g (next a) (next' (f a))) :
    τ.Carries g (x >>= next) (y >>= next') := by
  cases h with
  | ok a => exact hnext a rfl
  | error h => exact .error h

theorem Carries.foldlM {α β : Type} {f : α → β} {step : α → Token → Except SyntaxError α}
    {step' : β → Token → Except SyntaxError β}
    (hstep : ∀ a t, τ.Carries f (step a t) (step' (f a) (t.translate τ))) (tokens : List Token)
    (a : α) :
    τ.Carries f (tokens.foldlM step a) ((tokens.map (Token.translate τ)).foldlM step' (f a)) := by
  induction tokens generalizing a with
  | nil => exact .ok a
  | cons t tokens ih =>
    rw [List.map_cons, List.foldlM_cons, List.foldlM_cons]
    exact (hstep a t).bind fun a _ => ih a

theorem Carries.of_eq {α β : Type} {f : α → β} {a : α} {b : β} (h : b = f a) :
    τ.Carries f (.ok a) (.ok b) := by
  rw [h]
  exact .ok a

theorem Carries.atLast {α β : Type} (f : α → β) (fault : SyntaxFault) (last : Option Token) :
    τ.Carries f (.error (.atLast fault last))
      (.error (.atLast fault (last.map (Token.translate τ)))) := by
  cases last with
  | none => exact .error (.atStart fault)
  | some t => exact .error (.atToken t (.same fault))

/-- A fault at a token that is the same under its new name. -/
theorem Carries.fault {α β : Type} (f : α → β) (fault : SyntaxFault) (t : Token) :
    τ.Carries f (.error (.atToken fault t)) (.error (.atToken fault (t.translate τ))) :=
  .error (.atToken t (.same fault))

theorem Carries.wrongToken {α β : Type} (f : α → β) (t : Token) (expected : Expected) :
    τ.Carries f (.error (.atToken (.wrongToken t.lexeme.value expected) t))
      (.error (.atToken (.wrongToken (t.translate τ).lexeme.value expected) (t.translate τ))) :=
  .error (.atToken t (.wrongToken t.lexeme expected))

theorem Carries.strayToken {α β : Type} (f : α → β) (t : Token) :
    τ.Carries f (.error (.atToken (.strayToken t.lexeme.value) t))
      (.error (.atToken (.strayToken (t.translate τ).lexeme.value) (t.translate τ))) :=
  .error (.atToken t (.strayToken t.lexeme))

end Translation

theorem Renaming.text_intercalate (ρ : Renaming) (texts : List String) :
    ρ.text (" ".intercalate texts) = " ".intercalate (texts.map ρ.text) := by
  induction texts with
  | nil => exact congrArg String.ofList ρ.reword_nil
  | cons text texts ih =>
    cases texts with
    | nil => rw [List.map_singleton, String.intercalate_singleton, String.intercalate_singleton]
    | cons next texts =>
      apply String.toList_inj.mp
      rw [toList_text, Lint.toList_intercalate_blank, ρ.reword_append_cons _ (by decide),
        ← toList_text, ← toList_text, ih]
      exact (Lint.toList_intercalate_blank _ _ _).symm

namespace Reading

variable (τ : Translation)

theorem text_joinParts (ρ : Renaming) (parts : List String) :
    ρ.text (joinParts parts) = joinParts (parts.map ρ.text) := by
  rw [joinParts, joinParts, ρ.text_intercalate, List.map_reverse]

theorem continues_translate (r : Reading) (t : Token) :
    (r.translate τ).continues (t.translate τ) = r.continues t := by
  obtain ⟨mode, blocks, complete, last⟩ := r
  obtain ⟨lexeme, span⟩ := t
  cases mode with
  | decided =>
    cases lexeme with
    | keyword word => cases word <;> rfl
    | _ => rfl
  | _ => cases lexeme <;> rfl

theorem expected_translate (mode : Mode) : expected (mode.translate τ) = expected mode := by
  cases mode <;> rfl

theorem add_translate (r : Reading) (s : Statement) :
    (r.add s).translate τ = (r.translate τ).add (s.translate τ) := by
  unfold add translate
  dsimp only
  rw [Program.translate]
  rfl

/-- A statement that is added is the translation of the one added before. -/
theorem add_carries (r : Reading) (s : Statement) {s' : Statement} (hs : s' = s.translate τ) :
    τ.Carries (translate τ) (.ok (r.add s)) (.ok ((r.translate τ).add s')) := by
  apply Translation.Carries.of_eq
  rw [hs, add_translate]

theorem settle_carries (r : Reading) :
    τ.Carries (translate τ) r.settle (r.translate τ).settle := by
  obtain ⟨mode, blocks, complete, last⟩ := r
  cases mode with
  | printing keyword => exact .fault _ _ _
  | expression owner parts =>
    cases parts with
    | nil => cases owner <;> exact .fault _ _ _
    | cons part parts =>
      have hjoin := text_joinParts τ.names (part :: parts)
      cases owner with
      | declaration keyword name target =>
        apply add_carries
        rw [Statement.translate, hjoin]
        rfl
      | print keyword =>
        apply add_carries
        rw [Statement.translate, hjoin]
        rfl
  | decided test body loc =>
    apply add_carries
    rw [Statement.translate, Program.translate]
  | _ => exact .ok _

theorem close_translate (r : Reading) (block : OpenBlock) (outer : List OpenBlock) :
    (r.close block outer).translate τ =
      (r.translate τ).close (block.translate τ) (outer.map (OpenBlock.translate τ)) := by
  obtain ⟨owner, opener, before⟩ := block
  have hbody := Program.translate_reverse τ r.complete
  cases owner with
  | consequence test loc =>
    unfold close translate
    dsimp only [OpenBlock.translate, BlockOwner.translate, Mode.translate]
    rw [hbody]
  | alternative test body loc =>
    refine (add_translate τ _ _).trans ?_
    rw [Statement.translate, hbody]
    rfl
  | loop test loc =>
    refine (add_translate τ _ _).trans ?_
    rw [Statement.translate, hbody]
    rfl

theorem begin_carries (r : Reading) (t : Token) :
    τ.Carries (translate τ) (r.begin t) ((r.translate τ).begin (t.translate τ)) := by
  obtain ⟨mode, blocks, complete, last⟩ := r
  obtain ⟨lexeme, span⟩ := t
  cases lexeme with
  | keyword word =>
    cases word with
    | otherwise => exact .strayToken _ _
    | _ => exact .ok _
  | brace side =>
    cases blocks with
    | nil => cases side <;> exact .strayToken _ _
    | cons block outer =>
      cases side with
      | opening => exact .wrongToken _ _ _
      | closing =>
        apply Translation.Carries.of_eq
        rw [close_translate]
  | _ => exact .strayToken _ _

theorem operand_carries (t : Token) :
    τ.Carries (Token.translate τ) (operand t) (operand (t.translate τ)) := by
  obtain ⟨lexeme, span⟩ := t
  cases lexeme with
  | identifier | number => exact .ok _
  | _ => exact .wrongToken _ _ _

theorem take_named {r : Reading} {t keyword target : Token} {name : String}
    (hmode : r.mode = .named keyword name target) (ht : t.lexeme ≠ .operator "=") :
    r.take t = .error (.atToken (.wrongToken t.lexeme.value .equals) t) := by
  unfold take
  rw [hmode]
  exact if_neg ht

theorem take_carries (r : Reading) (t : Token) (hc : r.continues t = true) :
    τ.Carries (translate τ) (r.take t) ((r.translate τ).take (t.translate τ)) := by
  obtain ⟨mode, blocks, complete, last⟩ := r
  obtain ⟨lexeme, span⟩ := t
  cases mode with
  | between => exact begin_carries τ _ _
  | declared keyword =>
    cases lexeme with
    | identifier name => exact .ok _
    | _ => exact .wrongToken _ _ _
  | named keyword name target =>
    cases lexeme with
    | operator spelling =>
      by_cases hequals : spelling = "="
      · subst hequals
        exact .ok _
      · have hne : Lexeme.operator spelling ≠ .operator "=" := fun h => hequals (by cases h; rfl)
        rw [take_named rfl hne, translate, Mode.translate, take_named rfl hne]
        exact .wrongToken _ _ _
    | _ => exact .wrongToken _ _ _
  | printing keyword =>
    cases lexeme with
    | string contents =>
      apply add_carries
      rw [Statement.translate]
      rfl
    | keyword | brace => cases hc
    | _ => exact .ok _
  | expression owner parts =>
    -- only tokens of an expression get here, and their texts are renamed
    cases lexeme with
    | keyword | string | brace => cases hc
    | _ => exact .ok _
  | compared owner => exact (operand_carries τ _).bind fun left _ => .ok _
  | related owner left =>
    cases lexeme with
    | operator spelling =>
      unfold take
      dsimp only [translate, Mode.translate, Token.translate, Lexeme.rename]
      split
      · exact .ok _
      · exact .fault _ _ _
    | _ => exact .wrongToken _ _ _
  | closing owner left operator =>
    refine (operand_carries τ _).bind fun right _ => ?_
    cases owner <;> exact .ok _
  | opening owner =>
    cases lexeme with
    | brace side =>
      cases side with
      | opening => exact .ok _
      | closing => exact .wrongToken _ _ _
    | _ => exact .wrongToken _ _ _
  | decided test body loc => exact .ok _

/-- One token further, the parser remembers the translation of what it would. -/
theorem step_carries (r : Reading) (t : Token) :
    τ.Carries (translate τ) (r.step t) ((r.translate τ).step (t.translate τ)) := by
  have htake (q : Reading) (hq : q.continues t = true) :
      τ.Carries (translate τ) (q.take t >>= fun q => .ok { q with last := some t })
        ((q.translate τ).take (t.translate τ) >>= fun q =>
          .ok { q with last := some (t.translate τ) }) :=
    (take_carries τ q t hq).bind fun _ _ => .ok _
  unfold step
  rw [continues_translate]
  cases hc : r.continues t with
  | true => exact htake r hc
  | false =>
    refine (settle_carries τ r).bind fun q hq => htake q ?_
    exact continues_between (mode_of_settle hq (expected_of_not_continues hc)) t

theorem finish_carries (r : Reading) :
    τ.Carries (Program.translate τ) r.finish (r.translate τ).finish := by
  unfold finish
  rw [show (r.translate τ).mode = r.mode.translate τ from rfl, expected_translate]
  cases expected r.mode with
  | some wanted => exact .atLast _ _ r.last
  | none =>
    refine (settle_carries τ r).bind fun q _ => ?_
    obtain ⟨mode, blocks, complete, last⟩ := q
    cases blocks with
    | nil =>
      apply Translation.Carries.of_eq
      rw [Program.translate_reverse]
      rfl
    | cons block outer => exact .fault _ _ _

end Reading

namespace Source

variable (τ : Translation)

theorem balanceStep_carries (opened : List Token) (t : Token) :
    τ.Carries (List.map (Token.translate τ)) (balanceStep opened t)
      (balanceStep (opened.map (Token.translate τ)) (t.translate τ)) := by
  obtain ⟨lexeme, span⟩ := t
  cases lexeme with
  | brace side =>
    cases side with
    | opening => exact .ok _
    | closing =>
      cases opened with
      | nil => exact .fault _ _ _
      | cons opener opened => exact .ok _
  | _ => exact .ok _

theorem checkBalance_carries (tokens : List Token) :
    τ.Carries id (checkBalance tokens) (checkBalance (tokens.map (Token.translate τ))) := by
  have h : τ.Carries (List.map (Token.translate τ)) (tokens.foldlM balanceStep [])
      ((tokens.map (Token.translate τ)).foldlM balanceStep []) :=
    .foldlM (balanceStep_carries τ) tokens []
  unfold checkBalance
  generalize tokens.foldlM balanceStep [] = result at h
  generalize (tokens.map (Token.translate τ)).foldlM balanceStep [] = result' at h
  cases h with
  | error h => exact .error h
  | ok opened =>
    cases opened with
    | nil => exact .ok ()
    | cons opener opened => exact .fault _ _ _

end Source

namespace Program

/-- The translated tokens make up the translated program, or fail to make up one
for the same reason. -/
theorem ofTokens_carries (τ : Translation) (tokens : List Token) :
    τ.Carries (translate τ) (ofTokens tokens) (ofTokens (tokens.map (Token.translate τ))) :=
  (Translation.Carries.foldlM (Reading.step_carries τ) tokens .start).bind fun r _ =>
    Reading.finish_carries τ r

theorem ofBalancedTokens_carries (τ : Translation) (tokens : List Token) :
    τ.Carries (translate τ) (ofBalancedTokens tokens)
      (ofBalancedTokens (tokens.map (Token.translate τ))) :=
  (Source.checkBalance_carries τ tokens).bind fun _ _ => ofTokens_carries τ tokens

theorem ofTokens_translate (τ : Translation) {tokens : List Token} {p : Program}
    (h : ofTokens tokens = .ok p) :
    ofTokens (tokens.map (Token.translate τ)) = .ok (translate τ p) := by
  have hcarries := ofTokens_carries τ tokens
  rw [h] at hcarries
  generalize ofTokens (tokens.map (Token.translate τ)) = result at hcarries
  cases hcarries
  rfl

end Program

end Crafter
