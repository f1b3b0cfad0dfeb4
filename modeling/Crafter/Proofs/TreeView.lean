import Crafter.Proofs.Agreement
import Crafter.Proofs.Legible
import Crafter.Proofs.Respelt
import Crafter.Proofs.Sketch

/-! What the tree view of a program loses: the places, and nothing else. Every
line says how deep it is and shows where each of its parts ends, since no name,
expression or text in quotes contains the character that is written after it. -/
namespace Crafter

/-- No part of the condition contains the character that is written after it. -/
structure Sketch.Test.Clear (test : Sketch.Test) : Prop where
  left : ' ' ∉ test.left.toList
  operator : ' ' ∉ test.operator.toList
  right : ')' ∉ test.right.toList

/-- No part of the line contains the character that is written after it. -/
def Label.Clear : Label → Prop
  | .declaration name value => ']' ∉ name.toList ∧ ')' ∉ value.toList
  | .printText contents => '"' ∉ contents.toList
  | .printValue value => ')' ∉ value.toList
  | .conditional test | .loop test => test.Clear
  | .body | .alternative => True
  | .other _ => False

/-- Texts that are followed by a character that they do not contain end at its first
occurrence. -/
theorem cut_inj {c : Char} {a b : String} (ha : c ∉ a.toList) (hb : c ∉ b.toList)
    {x y : List Char} (h : a.toList ++ c :: x = b.toList ++ c :: y) : a = b ∧ x = y := by
  have other {text : String} (htext : c ∉ text.toList) : ∀ d ∈ text.toList, (d != c) = true := by
    intro d hd
    rw [bne_iff_ne]
    rintro rfl
    exact htext hd
  have stop (rest : List Char) : ∀ d ∈ (c :: rest).head?, (d != c) = false := by
    rintro _ ⟨⟩
    exact bne_self_eq_false c
  obtain ⟨htext, hrest⟩ := append_inj_of_stop (other ha) (stop x) (other hb) (stop y) h
  exact ⟨String.toList_inj.mp htext, (List.cons.inj hrest).2⟩

theorem Sketch.Test.append_inj {a b : Sketch.Test} (ha : a.Clear) (hb : b.Clear) {x y : List Char}
    (h : a.text.toList ++ ')' :: x = b.text.toList ++ ')' :: y) : a = b ∧ x = y := by
  simp only [text, toString, String.toList_append, String.reduceToList, List.append_assoc,
    List.cons_append, List.nil_append] at h
  obtain ⟨hleft, hrest⟩ := cut_inj ha.left hb.left h
  obtain ⟨hoperator, hrest⟩ := cut_inj ha.operator hb.operator hrest
  obtain ⟨hright, hxy⟩ := cut_inj ha.right hb.right hrest
  exact ⟨Sketch.Test.ext hleft hoperator hright, hxy⟩

namespace Label

/-- The fixed words of the lines of a program text. -/
def openings : List String :=
  ["declaration [name: ", "print \"", "print (", "conditional (", "then", "else", "loop ("]

theorem openings_prefix_free :
    ∀ a ∈ openings, ∀ b ∈ openings, a.toList <+: b.toList → a = b := by
  decide +kernel

theorem opening_mem {label : Label} (h : label.Clear) : label.opening ∈ openings := by
  cases label with
  | other => cases h
  | _ => simp [opening, openings]

theorem opening_append_inj {a b : Label} (ha : a.Clear) (hb : b.Clear) {x y : List Char}
    (h : a.opening.toList ++ x = b.opening.toList ++ y) : a.opening = b.opening ∧ x = y := by
  have hopening : a.opening = b.opening := by
    have hprefix : a.opening.toList <+: b.opening.toList ++ y := ⟨x, h⟩
    rcases List.prefix_or_prefix_of_prefix hprefix (List.prefix_append _ _) with hab | hba
    · exact openings_prefix_free _ (opening_mem ha) _ (opening_mem hb) hab
    · exact (openings_prefix_free _ (opening_mem hb) _ (opening_mem ha) hba).symm
  rw [hopening] at h
  exact ⟨hopening, List.append_cancel_left h⟩

theorem toList_append_close {close : String} {c : Char} (h : close.toList = [c]) (text : String)
    (x : List Char) : (text ++ close).toList ++ x = text.toList ++ c :: x := by
  rw [String.toList_append, h, List.append_assoc]
  rfl

/-- After the same fixed words, the line shows where it ends. -/
theorem details_append_inj {a b : Label} (ha : a.Clear) (hb : b.Clear)
    (hopening : a.opening = b.opening) {x y : List Char}
    (h : a.details.toList ++ x = b.details.toList ++ y) : a = b ∧ x = y := by
  have hquote : "\"".toList = ['"'] := by simp
  have hparenthesis : ")".toList = [')'] := by simp
  cases a with
  | declaration name value =>
    cases b with
    | declaration name' value' =>
      simp only [details, String.toList_append, String.reduceToList, List.append_assoc,
        List.cons_append, List.nil_append] at h
      obtain ⟨hname, hrest⟩ := cut_inj ha.1 hb.1 h
      obtain ⟨hvalue, hxy⟩ := cut_inj ha.2 hb.2 (List.cons.inj (List.cons.inj hrest).2).2
      exact ⟨by rw [hname, hvalue], hxy⟩
    | other => cases hb
    | _ => simp [opening] at hopening
  | printText contents =>
    cases b with
    | printText contents' =>
      rw [details, details, toList_append_close hquote, toList_append_close hquote] at h
      obtain ⟨rfl, rfl⟩ := cut_inj ha hb h
      exact ⟨rfl, rfl⟩
    | other => cases hb
    | _ => simp [opening] at hopening
  | printValue value =>
    cases b with
    | printValue value' =>
      rw [details, details, toList_append_close hparenthesis,
        toList_append_close hparenthesis] at h
      obtain ⟨rfl, rfl⟩ := cut_inj ha hb h
      exact ⟨rfl, rfl⟩
    | other => cases hb
    | _ => simp [opening] at hopening
  | conditional test =>
    cases b with
    | conditional test' =>
      rw [details, details, toList_append_close hparenthesis,
        toList_append_close hparenthesis] at h
      obtain ⟨rfl, rfl⟩ := Sketch.Test.append_inj ha hb h
      exact ⟨rfl, rfl⟩
    | other => cases hb
    | _ => simp [opening] at hopening
  | loop test =>
    cases b with
    | loop test' =>
      rw [details, details, toList_append_close hparenthesis,
        toList_append_close hparenthesis] at h
      obtain ⟨rfl, rfl⟩ := Sketch.Test.append_inj ha hb h
      exact ⟨rfl, rfl⟩
    | other => cases hb
    | _ => simp [opening] at hopening
  | body =>
    cases b with
    | body => exact ⟨rfl, h⟩
    | other => cases hb
    | _ => simp [opening] at hopening
  | alternative =>
    cases b with
    | alternative => exact ⟨rfl, h⟩
    | other => cases hb
    | _ => simp [opening] at hopening
  | other => cases ha

theorem append_inj {a b : Label} (ha : a.Clear) (hb : b.Clear) {x y : List Char}
    (h : a.text.toList ++ x = b.text.toList ++ y) : a = b ∧ x = y := by
  rw [text, text, String.toList_append, String.toList_append, List.append_assoc,
    List.append_assoc] at h
  obtain ⟨hopening, hdetails⟩ := opening_append_inj ha hb h
  exact details_append_inj ha hb hopening hdetails

/-- A line does not begin with a blank, apart from its indentation. -/
theorem text_head {label : Label} (h : label.Clear) (rest : List Char) :
    ∀ c ∈ (label.text.toList ++ rest).head?, (c == ' ') = false := by
  have hopening : ∀ o ∈ openings, ∃ c more, o.toList = c :: more ∧ (c == ' ') = false := by
    simp [openings]
  obtain ⟨c, more, ho, hc⟩ := hopening _ (opening_mem h)
  rw [text, String.toList_append, ho]
  rintro _ ⟨⟩
  exact hc

end Label

namespace Row

/-- Lines as they stand after another one. -/
def printed (rows : List Row) : List Char := rows.flatMap fun row => '\n' :: row.line.toList

theorem printed_cons (row : Row) (rows : List Row) :
    printed (row :: rows) =
      '\n' :: (List.replicate (2 * row.depth) ' ' ++ (row.label.text.toList ++ printed rows)) := by
  have hindent : (2 * (row.depth : Int)).toNat = 2 * row.depth := by omega
  rw [printed, List.flatMap_cons, line, indented, hindent, String.toList_append,
    String.toList_ofList, List.cons_append, List.append_assoc]
  rfl

/-- The indentation of a line shows how deep it is. -/
theorem indent_append_inj {d d' : Nat} {x y : List Char}
    (hx : ∀ c ∈ x.head?, (c == ' ') = false) (hy : ∀ c ∈ y.head?, (c == ' ') = false)
    (h : List.replicate (2 * d) ' ' ++ x = List.replicate (2 * d') ' ' ++ y) : d = d' ∧ x = y := by
  have blank (n : Nat) : ∀ c ∈ List.replicate n ' ', (c == ' ') = true := by
    intro c hc
    rw [List.eq_of_mem_replicate hc]
    rfl
  obtain ⟨hindent, hxy⟩ := append_inj_of_stop (blank _) hx (blank _) hy h
  have hlength : 2 * d = 2 * d' := by
    simpa only [List.length_replicate] using congrArg List.length hindent
  exact ⟨by omega, hxy⟩

theorem printed_injective {rows rows' : List Row} (hclear : ∀ row ∈ rows, row.label.Clear)
    (hclear' : ∀ row ∈ rows', row.label.Clear) (h : printed rows = printed rows') :
    rows = rows' := by
  induction rows generalizing rows' with
  | nil =>
    cases rows' with
    | nil => rfl
    | cons row' rows' => rw [printed_cons] at h; cases h
  | cons row rows ih =>
    cases rows' with
    | nil => rw [printed_cons] at h; cases h
    | cons row' rows' =>
      rw [printed_cons, printed_cons] at h
      have hrow := hclear row List.mem_cons_self
      have hrow' := hclear' row' List.mem_cons_self
      obtain ⟨hdepth, hrest⟩ := indent_append_inj (Label.text_head hrow _)
        (Label.text_head hrow' _) (List.cons.inj h).2
      obtain ⟨hlabel, hrows⟩ := Label.append_inj hrow hrow' hrest
      have heq : row = row' := Row.ext hdepth hlabel
      rw [heq, ih (fun r hr => hclear r (List.mem_cons_of_mem _ hr))
        (fun r hr => hclear' r (List.mem_cons_of_mem _ hr)) hrows]

end Row

namespace Program

open Sketch

theorem mem_second {depth : Nat} {lines : List Row} {row : Row} (h : row ∈ second depth lines) :
    row.label = .alternative ∨ row ∈ lines := by
  cases lines with
  | nil => cases h
  | cons first lines =>
    rcases List.mem_cons.mp h with rfl | h
    · exact Or.inl rfl
    · exact Or.inr h

mutual

theorem clear_blockRows : ∀ (s : Statement) (depth : Nat),
    (∀ t ∈ s.withNested, t.sketch.label.Clear) → ∀ row ∈ s.sketch.blockRows depth, row.label.Clear
  | .conditional test body alternative loc, depth, h, row, hrow => by
    have hnested (t : Statement) (ht : t ∈ statements body ++ statements alternative) :
        t.sketch.label.Clear := by
      apply h
      rw [Statement.withNested]
      exact List.mem_cons_of_mem _ ht
    rw [Statement.sketch, blockRows] at hrow
    rcases List.mem_cons.mp hrow with rfl | hrow
    · trivial
    rcases List.mem_append.mp hrow with hbody | hsecond
    · exact clear_rows body _ (fun t ht => hnested t (List.mem_append_left _ ht)) row hbody
    rcases mem_second hsecond with halternative | hrow
    · rw [halternative]
      trivial
    · exact clear_rows alternative _ (fun t ht => hnested t (List.mem_append_right _ ht)) row hrow
  | .loop test body loc, depth, h, row, hrow => by
    rw [Statement.sketch, blockRows] at hrow
    refine clear_rows body _ (fun t ht => h t ?_) row hrow
    rw [Statement.withNested]
    exact List.mem_cons_of_mem _ ht
  | .declaration .., _, _, row, hrow | .printText .., _, _, row, hrow
  | .printValue .., _, _, row, hrow | .foreign .., _, _, row, hrow
  | .absent _, _, _, row, hrow => by
    cases hrow

/-- The lines of a program say no more than its statements do. -/
theorem clear_rows : ∀ (p : List Statement) (depth : Nat),
    (∀ t ∈ statements p, t.sketch.label.Clear) → ∀ row ∈ rows depth (sketch p), row.label.Clear
  | [], _, _, row, hrow => by cases hrow
  | s :: rest, depth, h, row, hrow => by
    rw [sketch, rows] at hrow
    rw [statements] at h
    rcases List.mem_cons.mp hrow with rfl | hrow
    · exact h s (List.mem_append_left _ (self_mem_withNested s))
    rcases List.mem_append.mp hrow with hrow | hrow
    · exact clear_blockRows s depth (fun t ht => h t (List.mem_append_left _ ht)) row hrow
    · exact clear_rows rest depth (fun t ht => h t (List.mem_append_right _ ht)) row hrow

end

theorem toList_joinLines_cons (first : String) (more : List String) :
    (Text.joinLines (first :: more)).toList =
      first.toList ++ more.flatMap fun line => '\n' :: line.toList := by
  induction more generalizing first with
  | nil => rw [Text.joinLines, String.intercalate_singleton, List.flatMap_nil, List.append_nil]
  | cons next more ih =>
    have hnext := ih next
    unfold Text.joinLines at hnext ⊢
    rw [String.intercalate_cons_cons, String.toList_append, String.toList_append, hnext,
      List.append_assoc]
    rfl

/-- Below the root, the view of a program consists of the lines of its sketch. -/
theorem toList_outline {p : Program} (h : Shown p) :
    p.outline.toList = p.root.describe.toList ++ Row.printed (rows 1 (sketch p)) := by
  have hlines : p.root.outlineLines 0 = p.root.describe :: (rows 1 (sketch p)).map Row.line := by
    rw [← h 1]
    rfl
  rw [outline, Statement.outline, hlines, toList_joinLines_cons, List.flatMap_map]
  rfl

/-- A program whose lines show where they end is told by its view, up to places. -/
theorem outline_eq_iff_of_clear {p q : Program} (hp : Shown p) (hq : Shown q)
    (hclear : ∀ s ∈ statements p, s.sketch.label.Clear)
    (hclear' : ∀ s ∈ statements q, s.sketch.label.Clear) :
    p.outline = q.outline ↔ sketch p = sketch q := by
  have hroot : p.root.describe = q.root.describe := rfl
  rw [← String.toList_inj, toList_outline hp, toList_outline hq, hroot]
  constructor
  · intro h
    apply rows_injective
    exact Row.printed_injective (clear_rows p 1 hclear) (clear_rows q 1 hclear')
      (List.append_cancel_left h)
  · intro h
    rw [h]

end Program

namespace Source

/-- No token of an expression contains a closing parenthesis. -/
theorem no_parenthesis {chars : List Char} {lexeme : Lexeme} (h : Spelt chars lexeme)
    (hin : lexeme.inExpression = true) : ')' ∉ chars := by
  intro hmem
  cases h with
  | identifier letters nonempty alpha => exact absurd (alpha _ hmem) (by decide)
  | number digits nonempty digit => exact absurd (digit _ hmem) (by decide)
  | operator c start =>
    cases List.mem_singleton.mp hmem
    exact absurd start (by decide)
  | compound c start =>
    rcases List.mem_cons.mp hmem with rfl | hmem
    · exact absurd start (by decide)
    · exact absurd hmem (by decide)
  | string | keyword | opening | closing => cases hin

theorem no_quote_of_string {chars : List Char} {contents : String}
    (h : Spelt chars (.string contents)) : '"' ∉ contents.toList := by
  cases h with
  | string body closed => rwa [String.toList_ofList]

/-- The printed value of an operand is a name, a number in decimal, or the word for an
infinite number. -/
theorem isAlphanum_of_operand {chars : List Char} {lexeme : Lexeme} (h : Spelt chars lexeme)
    (hoperand : (∃ name, lexeme = .identifier name) ∨ ∃ value, lexeme = .number value) :
    ∀ c ∈ lexeme.value.toList, c.isAlphanum = true := by
  intro c hc
  rcases hoperand with ⟨name, rfl⟩ | ⟨value, rfl⟩
  · have halpha := (isName_of_spelt h).alpha c hc
    rw [Char.isAlphanum, halpha, Bool.true_or]
  · cases value with
    | exact value =>
      have hdigit : c.isDigit = true := by
        apply Nat.isDigit_of_mem_toDigits (b := 10) (n := value) (by decide) (by decide)
        rwa [← Nat.toList_repr]
      rw [Char.isAlphanum, hdigit, Bool.or_true]
    | infinite =>
      have hall : "inf".toList.all Char.isAlphanum = true := by decide
      exact List.all_eq_true.mp hall c hc

end Source

namespace Grammar

open Source

theorem mem_intercalate_blank {c : Char} {texts : List String}
    (h : c ∈ (" ".intercalate texts).toList) : c = ' ' ∨ ∃ text ∈ texts, c ∈ text.toList := by
  induction texts with
  | nil => cases h
  | cons text texts ih =>
    cases texts with
    | nil =>
      rw [String.intercalate_singleton] at h
      exact Or.inr ⟨text, List.mem_cons_self, h⟩
    | cons next texts =>
      rw [Lint.toList_intercalate_blank] at h
      rcases List.mem_append.mp h with h | h
      · exact Or.inr ⟨text, List.mem_cons_self, h⟩
      rcases List.mem_cons.mp h with h | h
      · exact Or.inl h
      · obtain hblank | ⟨other, hother, hc⟩ := ih h
        · exact Or.inl hblank
        · exact Or.inr ⟨other, List.mem_cons_of_mem _ hother, hc⟩

theorem clear_run {run : Run} (spelt : ∀ t ∈ run.tokens, t.WellSpelt) :
    ')' ∉ run.text.toList := by
  intro hmem
  obtain hblank | ⟨text, htext, hc⟩ := mem_intercalate_blank hmem
  · exact absurd hblank (by decide)
  · obtain ⟨t, ht, rfl⟩ := List.mem_map.mp htext
    exact no_parenthesis (spelt t ht) (run.inExpression t ht) hc

theorem clear_test {test : Test} (spelt : ∀ t ∈ test.tokens, t.WellSpelt) :
    test.condition.sketch.Clear := by
  have hleft := isAlphanum_of_operand (spelt test.left (by simp [Test.tokens])) test.left.property
  have hright := isAlphanum_of_operand (spelt test.right (by simp [Test.tokens]))
    test.right.property
  have hoperator : ∀ c ∈ comparisons, ' ' ∉ c.toList := by decide
  exact ⟨fun h => absurd (hleft _ h) (by decide), hoperator _ test.known,
    fun h => absurd (hright _ h) (by decide)⟩

/-- The lines for the statements of a program text show where they end. -/
theorem clear_tree {phrase : Phrase} (spelt : ∀ t ∈ phrase.content, t.WellSpelt) :
    phrase.tree.sketch.label.Clear := by
  cases phrase with
  | declaration keyword name target equals value =>
    constructor
    · intro h
      have hspelt := spelt target.val List.mem_cons_self
      rw [Token.WellSpelt, target.property] at hspelt
      exact absurd ((isName_of_spelt hspelt).alpha _ h) (by decide)
    · exact clear_run fun t ht => spelt t (List.mem_cons_of_mem _ (List.mem_cons_of_mem _ ht))
  | printText keyword contents text =>
    have hspelt := spelt text.val List.mem_cons_self
    rw [Token.WellSpelt, text.property] at hspelt
    exact no_quote_of_string hspelt
  | printValue keyword value => exact clear_run spelt
  | conditional | alternative | loop => exact clear_test spelt

end Grammar

namespace Program

variable {file file' source source' : String} {tokens tokens' : List Token} {p q : Program}

open Grammar

theorem shown_of_source (h : ofSource file source = .ok (tokens, p)) :
    Shown p ∧ ∀ s ∈ statements p, s.sketch.label.Clear := by
  obtain ⟨hscan, hparse⟩ := (ofSource_eq_ok_iff file source tokens p).mp h
  obtain ⟨d, hd, rfl⟩ := exists_derivation_of_ofTokens hparse
  refine ⟨tree_shown d, ?_⟩
  intro s hs
  rw [statements_tree] at hs
  obtain ⟨phrase, hphrase, rfl⟩ := List.mem_map.mp hs
  exact clear_tree (wellSpelt_of_mem_phrases hscan hd hphrase)

/-- Two sources have the same tree view exactly if their trees are the same apart from
the places of statements and operands, where an operand counts as what it is printed
as. -/
theorem outline_eq_iff (hp : ofSource file source = .ok (tokens, p))
    (hq : ofSource file' source' = .ok (tokens', q)) :
    p.outline = q.outline ↔ sketch p = sketch q := by
  obtain ⟨hshown, hclear⟩ := shown_of_source hp
  obtain ⟨hshown', hclear'⟩ := shown_of_source hq
  exact outline_eq_iff_of_clear hshown hshown' hclear hclear'

/-- Two layouts of one program: an operand is written with leading zeros in one of them,
and a second block is there but empty. -/
def layouts : String × String :=
  (Text.joinLines ["jabtak i < 007 \x7b agar i == 0 \x7b likho \"a", "  then\" \x7d \x7d"],
    Text.joinLines ["jabtak i < 7", "\x7b", "  agar i == 0 \x7b", "likho \"a", "  then\"",
      "  \x7d warna \x7b \x7d", "\x7d"])

theorem outline_eq_iff_layouts :
    (ofSource "a" layouts.1).isOk = true ∧ (ofSource "b" layouts.2).isOk = true ∧
      sketch (ofSourceD "a" layouts.1).2 = sketch (ofSourceD "b" layouts.2).2 := by
  have hfirst : (ofSource "a" layouts.1).isOk = true := by decide +kernel
  have hsecond : (ofSource "b" layouts.2).isOk = true := by decide +kernel
  refine ⟨hfirst, hsecond, ?_⟩
  apply (outline_eq_iff (ofSource_eq_of_isOk hfirst) (ofSource_eq_of_isOk hsecond)).mp
  decide +kernel

end Program

end Crafter
