import Crafter.CommandLine.Command
import Crafter.Proofs.Agreement
import Crafter.Proofs.JsonReading

/-! The JSON view of a tree. It holds all that the tree does, except for the characters
that numbers are spelt with, and a reader finds it in what the command line prints. -/
namespace Crafter

open JsonText

namespace Json

/-! Objects with one member for each name. -/

mutual

/-- No object in the value has two members of one name. -/
def Keyed : Json → Prop
  | .array elements => KeyedElements elements
  | .object members => (members.map Prod.fst).Nodup ∧ KeyedMembers members
  | .number _ | .infinity | .bool _ | .string _ => True

def KeyedElements : List Json → Prop
  | [] => True
  | v :: rest => v.Keyed ∧ KeyedElements rest

def KeyedMembers : List (String × Json) → Prop
  | [] => True
  | (_, v) :: rest => v.Keyed ∧ KeyedMembers rest

end

end Json

open Json

theorem Position.keyed_json (p : Position) : p.json.Keyed := by
  simp [json, Keyed, KeyedMembers]

theorem Token.keyed_json (t : Token) : t.json.Keyed := by
  have hvalue : t.lexeme.json.Keyed := by
    unfold Lexeme.json
    split
    · next literal _ => cases literal <;> trivial
    · trivial
  have hspan : t.span.json.Keyed := by simp [Span.json, Keyed, KeyedMembers]
  simp [json, Keyed, KeyedMembers, hvalue, hspan]

theorem Condition.keyed_json (c : Condition) : c.json.Keyed := by
  simp [json, Keyed, KeyedMembers, Token.keyed_json]

mutual

theorem Statement.keyed_json : ∀ s : Statement, s.json.Keyed
  | .declaration .. | .printText .. | .printValue .. => by
    simp [Statement.json, Keyed, KeyedMembers, Position.keyed_json]
  | .conditional test body alternative loc => by
    simp [Statement.json, Keyed, KeyedMembers, Position.keyed_json, Condition.keyed_json,
      Program.keyed_jsonList body, Program.keyed_jsonList alternative]
  | .loop test body loc => by
    simp [Statement.json, Keyed, KeyedMembers, Position.keyed_json, Condition.keyed_json,
      Program.keyed_jsonList body]
  | .absent part => by simp [Statement.json, Keyed, KeyedMembers]
  | .foreign name body loc => by
    simp [Statement.json, Keyed, KeyedMembers, Program.keyed_jsonList body]

theorem Program.keyed_jsonList : ∀ p : List Statement, KeyedElements (Program.jsonList p)
  | [] => trivial
  | s :: rest => by
    rw [Program.jsonList, KeyedElements]
    exact ⟨s.keyed_json, Program.keyed_jsonList rest⟩

end

theorem Program.keyed_json (p : Program) : p.json.Keyed := by
  simp [Program.json, Keyed, KeyedMembers, Program.keyed_jsonList p]

/-! Apart from the characters that tokens are spelt with, the tree is told by the view. -/

/-- The token without the characters that it is spelt with. -/
def Token.unspelt (t : Token) : Token := { t with span := { t.span with text := "" } }

def Condition.unspelt (c : Condition) : Condition := ⟨c.left.unspelt, c.operator, c.right.unspelt⟩

mutual

def Statement.unspelt : Statement → Statement
  | .conditional test body alternative loc =>
    .conditional test.unspelt (Program.unspelt body) (Program.unspelt alternative) loc
  | .loop test body loc => .loop test.unspelt (Program.unspelt body) loc
  | .foreign name body loc => .foreign name (Program.unspelt body) loc
  | s => s

/-- The program without the characters that its operands are spelt with. A number may
be written in several ways. -/
def Program.unspelt : List Statement → List Statement
  | [] => []
  | s :: rest => s.unspelt :: Program.unspelt rest

end

theorem Position.json_injective {a b : Position} (h : a.json = b.json) : a = b := by
  obtain ⟨line, column⟩ := a
  obtain ⟨line', column'⟩ := b
  simp only [json, Json.object.injEq, List.cons.injEq, Prod.mk.injEq, Json.number.injEq,
    true_and, and_true] at h
  rw [h.1, h.2]

/-- All of a stretch is shown but its characters. -/
theorem Span.json_injective {a b : Span} (h : a.json = b.json) :
    { a with text := "" } = { b with text := "" } := by
  obtain ⟨file, ⟨line, column⟩, ⟨stopLine, stopColumn⟩, _⟩ := a
  obtain ⟨file', ⟨line', column'⟩, ⟨stopLine', stopColumn'⟩, _⟩ := b
  simp only [json, Json.object.injEq, List.cons.injEq, Prod.mk.injEq, Json.number.injEq,
    Json.string.injEq, true_and, and_true] at h
  obtain ⟨rfl, rfl, rfl, rfl, rfl⟩ := h
  rfl

theorem Literal.json_injective {a b : Literal} (h : a.json = b.json) : a = b := by
  cases a with
  | exact m =>
    cases b with
    | exact n => rw [Int.ofNat.inj (Json.number.inj h)]
    | infinite => cases h
  | infinite =>
    cases b with
    | exact => cases h
    | infinite => rfl

theorem Keyword.spelling_injective {a b : Keyword} (h : a.spelling = b.spelling) : a = b := by
  cases a <;> cases b <;> first | rfl | simp [spelling] at h

theorem Brace.spelling_injective {a b : Brace} (h : a.spelling = b.spelling) : a = b := by
  cases a <;> cases b <;> first | rfl | simp [spelling] at h

/-- The class of a token and its value tell what it says. -/
theorem Lexeme.json_injective {a b : Lexeme} (hcategory : a.category = b.category)
    (h : a.json = b.json) : a = b := by
  cases a with
  | keyword word =>
    cases b with
    | keyword word' => rw [Keyword.spelling_injective (Json.string.inj h)]
    | _ => simp [category] at hcategory
  | identifier name =>
    cases b with
    | identifier name' => rw [show name = name' from Json.string.inj h]
    | _ => simp [category] at hcategory
  | number value =>
    cases b with
    | number value' => rw [Literal.json_injective h]
    | _ => simp [category] at hcategory
  | string contents =>
    cases b with
    | string contents' => rw [show contents = contents' from Json.string.inj h]
    | _ => simp [category] at hcategory
  | operator spelling =>
    cases b with
    | operator spelling' => rw [show spelling = spelling' from Json.string.inj h]
    | _ => simp [category] at hcategory
  | brace side =>
    cases b with
    | brace side' => rw [Brace.spelling_injective (Json.string.inj h)]
    | _ => simp [category] at hcategory

theorem Token.json_injective {t u : Token} (h : t.json = u.json) : t.unspelt = u.unspelt := by
  simp only [json, Json.object.injEq, List.cons.injEq, Prod.mk.injEq, Json.string.injEq,
    true_and, and_true] at h
  obtain ⟨hcategory, hlexeme, hspan⟩ := h
  unfold unspelt
  rw [Lexeme.json_injective hcategory hlexeme, Span.json_injective hspan]

theorem Condition.json_injective {c d : Condition} (h : c.json = d.json) :
    c.unspelt = d.unspelt := by
  simp only [json, Json.object.injEq, List.cons.injEq, Prod.mk.injEq, Json.string.injEq,
    true_and, and_true] at h
  obtain ⟨hleft, hoperator, hright⟩ := h
  unfold unspelt
  rw [Token.json_injective hleft, hoperator, Token.json_injective hright]

theorem Condition.json_unspelt (c : Condition) : c.unspelt.json = c.json := rfl

mutual

/-- No statement shows the characters of its operands. -/
theorem Statement.json_unspelt : ∀ s : Statement, s.unspelt.json = s.json
  | .declaration .. | .printText .. | .printValue .. | .absent _ => rfl
  | .conditional test body alternative loc => by
    simp only [Statement.unspelt, Statement.json, Condition.json_unspelt,
      Program.jsonList_unspelt body, Program.jsonList_unspelt alternative]
  | .loop test body loc => by
    simp only [Statement.unspelt, Statement.json, Condition.json_unspelt,
      Program.jsonList_unspelt body]
  | .foreign name body loc => by
    simp only [Statement.unspelt, Statement.json, Program.jsonList_unspelt body]

theorem Program.jsonList_unspelt : ∀ p : List Statement,
    Program.jsonList (Program.unspelt p) = Program.jsonList p
  | [] => rfl
  | s :: rest => by
    rw [Program.unspelt, Program.jsonList, Program.jsonList, Statement.json_unspelt s,
      Program.jsonList_unspelt rest]

end

mutual

theorem Statement.json_injective : ∀ {s t : Statement}, s.Genuine → t.Genuine →
    s.json = t.json → s.unspelt = t.unspelt
  | .declaration name value loc, t, _, ht, h => by
    cases t with
    | declaration name' value' loc' =>
      simp only [Statement.json, Json.object.injEq, List.cons.injEq, Prod.mk.injEq,
        Json.string.injEq, true_and, and_true] at h
      obtain ⟨rfl, rfl, hloc⟩ := h
      rw [Position.json_injective hloc]
    | foreign | absent => cases ht
    | _ => simp [Statement.json] at h
  | .printText contents loc, t, _, ht, h => by
    cases t with
    | printText contents' loc' =>
      simp only [Statement.json, Json.object.injEq, List.cons.injEq, Prod.mk.injEq,
        Json.string.injEq, true_and, and_true] at h
      obtain ⟨rfl, hloc⟩ := h
      rw [Position.json_injective hloc]
    | foreign | absent => cases ht
    | _ => simp [Statement.json] at h
  | .printValue value loc, t, _, ht, h => by
    cases t with
    | printValue value' loc' =>
      simp only [Statement.json, Json.object.injEq, List.cons.injEq, Prod.mk.injEq,
        Json.string.injEq, true_and, and_true] at h
      obtain ⟨rfl, hloc⟩ := h
      rw [Position.json_injective hloc]
    | foreign | absent => cases ht
    | _ => simp [Statement.json] at h
  | .conditional test body alternative loc, t, hs, ht, h => by
    cases t with
    | conditional test' body' alternative' loc' =>
      simp only [Statement.json, Json.object.injEq, List.cons.injEq, Prod.mk.injEq,
        Json.array.injEq, true_and, and_true] at h
      obtain ⟨htest, hbody, halternative, hloc⟩ := h
      rw [Statement.unspelt, Statement.unspelt, Condition.json_injective htest,
        Program.jsonList_injective hs.1 ht.1 hbody,
        Program.jsonList_injective hs.2 ht.2 halternative, Position.json_injective hloc]
    | foreign | absent => cases ht
    | _ => simp [Statement.json] at h
  | .loop test body loc, t, hs, ht, h => by
    cases t with
    | loop test' body' loc' =>
      simp only [Statement.json, Json.object.injEq, List.cons.injEq, Prod.mk.injEq,
        Json.array.injEq, true_and, and_true] at h
      obtain ⟨htest, hbody, hloc⟩ := h
      rw [Statement.unspelt, Statement.unspelt, Condition.json_injective htest,
        Program.jsonList_injective hs ht hbody, Position.json_injective hloc]
    | foreign | absent => cases ht
    | _ => simp [Statement.json] at h
  | .foreign .., _, hs, _, _ | .absent _, _, hs, _, _ => by cases hs

theorem Program.jsonList_injective : ∀ {p q : List Statement}, Program.Genuine p →
    Program.Genuine q → Program.jsonList p = Program.jsonList q →
    Program.unspelt p = Program.unspelt q
  | [], [], _, _, _ => rfl
  | [], _ :: _, _, _, h => by cases h
  | _ :: _, [], _, _, h => by cases h
  | s :: p, t :: q, hp, hq, h => by
    obtain ⟨hs, hrest⟩ := List.cons.inj h
    rw [Program.unspelt, Program.unspelt, Statement.json_injective hp.1 hq.1 hs,
      Program.jsonList_injective hp.2 hq.2 hrest]

end

/-- Trees of program texts have the same view exactly if they are the same apart from
the characters of their operands. -/
theorem Program.json_eq_iff {p q : Program} (hp : Program.Genuine p) (hq : Program.Genuine q) :
    p.json = q.json ↔ Program.unspelt p = Program.unspelt q := by
  constructor
  · intro h
    simp only [Program.json, Json.object.injEq, List.cons.injEq, Prod.mk.injEq, Json.array.injEq,
      true_and, and_true] at h
    exact Program.jsonList_injective hp hq h
  · intro h
    rw [Program.json, ← Program.jsonList_unspelt, h, Program.jsonList_unspelt]
    rfl

namespace CommandLine

/-- The options ask for the tree of the script at the path, as JSON and without a
narration. -/
structure Options.ShowsJson (o : Options) (path : String) : Prop where
  path : o.path? = some path
  tokens : o.tokens = false
  outline : o.outline = true
  json : o.json = true
  debug : o.debug = false

variable {files : Files} {path source : String} {arguments : List String} {o : Options}
  {bytes : List UInt8} {tokens : List Token} {p : Program}

theorem treatScript_showsJson (hshows : o.ShowsJson path) (clock : Clock)
    (breakpoints : Breakpoints)
    (hp : Program.ofSource path source = .ok (tokens, p)) :
    treatScript o clock breakpoints path source = .printed [p.json.text] 0 := by
  unfold treatScript
  rw [hshows.tokens, hshows.outline, hshows.json, hshows.debug, hp]
  rfl

theorem perform_showsJson (stdin : String) (clocks : Nat → Clock) (hshows : o.ShowsJson path)
    (hfound : files.found path = .file bytes) (hread : readScript files path = .ok source)
    (hp : Program.ofSource path source = .ok (tokens, p)) :
    perform files clocks stdin o = .printed [p.json.text] 0 := by
  have hruns : o.runs = false := by
    rw [Options.runs, hshows.outline, Bool.or_true, Bool.true_or, Bool.not_true]
  have hscript : performScript files o (clocks 0) path = .printed [p.json.text] 0 := by
    unfold performScript
    rw [hruns, hread]
    cases o.breakpoints.mapM id <;> exact treatScript_showsJson hshows _ _ hp
  unfold perform
  rw [hshows.path]
  dsimp only
  rw [hfound]
  exact hscript

/-- What a call prints that asks for the tree of a script as JSON is one JSON value, and
it is the tree: no other value could have been written there, and of the trees of program
texts only those that differ in the characters of their operands at most. No object in it
names a member twice. -/
theorem call_json_decodes (stdin : String) (clocks : Nat → Clock)
    (harguments : Options.ofArguments arguments = .ok o) (hshows : o.ShowsJson path) (hfound : files.found path = .file bytes)
    (hread : readScript files path = .ok source)
    (hp : Program.ofSource path source = .ok (tokens, p)) :
    (call files stdin arguments clocks).exit = .ok 0 ∧
      (call files stdin arguments clocks).stderr = "" ∧
      (∃! v, Decodes (call files stdin arguments clocks).stdout v) ∧
      (∀ v : Json, Decodes (call files stdin arguments clocks).stdout v.value ↔ v = p.json) ∧
      (∀ q : Program, Program.Genuine q →
        (Decodes (call files stdin arguments clocks).stdout q.json.value ↔
          Program.unspelt q = Program.unspelt p)) ∧
      p.json.Keyed := by
  have hcall : call files stdin arguments clocks = .printed [p.json.text] 0 := by
    unfold call
    rw [harguments]
    exact perform_showsJson stdin clocks hshows hfound hread hp
  have hdecodes : Decodes (call files stdin arguments clocks).stdout p.json.value := by
    rw [hcall]
    exact decodes_printed p.json
  have hiff (v : Json) :
      Decodes (call files stdin arguments clocks).stdout v.value ↔ v = p.json := by
    constructor
    · intro hv
      exact value_injective (decodes_unique hv hdecodes)
    · rintro rfl
      exact hdecodes
  have hparse := ((Program.ofSource_eq_ok_iff path source tokens p).mp hp).2
  have hgenuine := Program.genuine_of_ofTokens hparse
  refine ⟨by rw [hcall]; rfl, by rw [hcall]; rfl, ?_, hiff, ?_, p.keyed_json⟩
  · refine ⟨p.json.value, hdecodes, ?_⟩
    intro v hv
    exact decodes_unique hv hdecodes
  · intro q hq
    rw [hiff, Program.json_eq_iff hq hgenuine]

/-- The name and the text of a script with characters of every kind. -/
def awkward : String × String :=
  ("\"\\\u00e9", "jabtak i < 007 \x7b agar 1 == i \x7b likho \"\\\t\x7f\u00e9😀\n\" \x7d \x7d")

def awkwardFiles : Files :=
  (Tree.ofPaths [] [(awkward.1, awkward.2.toByteArray.data.toList)]).toFiles

theorem eq_ok_of_toOption {ε α : Type} {result : Except ε α} {a : α}
    (h : result.toOption = some a) : result = .ok a := by
  cases result with
  | ok b => rw [Option.some.inj h]
  | error e => cases h

theorem call_json_decodes_awkward :
    (Program.ofSource awkward.1 awkward.2).isOk = true ∧
    (∃! v, Decodes (call awkwardFiles "" ["--ast", "--json", awkward.1]).stdout v) ∧
    ∀ v : Json, Decodes (call awkwardFiles "" ["--ast", "--json", awkward.1]).stdout v.value ↔
      v = (Program.ofSourceD awkward.1 awkward.2).2.json := by
  have harguments : Options.ofArguments ["--ast", "--json", awkward.1] =
      .ok { Options.standard with script := some awkward.1, outline := true, json := true } :=
    eq_ok_of_toOption (by decide +kernel)
  have hfound : awkwardFiles.found awkward.1 = .file awkward.2.toByteArray.data.toList := by
    decide +kernel
  have hread : readScript awkwardFiles awkward.1 = .ok awkward.2 :=
    eq_ok_of_toOption (by decide +kernel)
  have hprogram : (Program.ofSource awkward.1 awkward.2).isOk = true := by decide +kernel
  have hshows : Options.ShowsJson
      { Options.standard with script := some awkward.1, outline := true, json := true }
      awkward.1 := ⟨by decide, rfl, rfl, rfl, rfl⟩
  obtain ⟨_, _, hunique, hdecodes, _⟩ := call_json_decodes "" (fun _ => .everySecond) harguments
    hshows hfound hread (Program.ofSource_eq_of_isOk hprogram)
  exact ⟨hprogram, hunique, hdecodes⟩

end CommandLine

end Crafter
