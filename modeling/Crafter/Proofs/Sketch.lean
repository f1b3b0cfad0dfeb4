import Crafter.Program.Outline
import Crafter.Proofs.Phrases

/-! The tree of a program without the places of its statements, and the lines in
which it is shown. A block ends at the first line that is less deep than its
statements, so that the lines tell the tree. -/
namespace Crafter

/-- A condition without places: what its operands are printed as. -/
@[ext] structure Sketch.Test where
  left : String
  operator : String
  right : String
deriving DecidableEq, Repr

def Condition.sketch (c : Condition) : Sketch.Test :=
  ⟨c.left.lexeme.value, c.operator, c.right.lexeme.value⟩

def Sketch.Test.text (test : Sketch.Test) : String :=
  s!"{test.left} {test.operator} {test.right}"

/-- A statement without places. No program text has nodes that are `other`. -/
inductive Sketch where
  | declaration (name value : String)
  | printText (contents : String)
  | printValue (value : String)
  | conditional (test : Sketch.Test) (body alternative : List Sketch)
  | loop (test : Sketch.Test) (body : List Sketch)
  | other (name : String)

mutual

def Statement.sketch : Statement → Sketch
  | .declaration name value _ => .declaration name value
  | .printText contents _ => .printText contents
  | .printValue value _ => .printValue value
  | .conditional test body alternative _ =>
    .conditional test.sketch (Program.sketch body) (Program.sketch alternative)
  | .loop test body _ => .loop test.sketch (Program.sketch body)
  | .foreign name _ _ | .absent name => .other name

/-- A program without the places of its statements and operands. -/
def Program.sketch : List Statement → List Sketch
  | [] => []
  | s :: rest => s.sketch :: Program.sketch rest

end

/-- What one line of the tree says. -/
inductive Label where
  | declaration (name value : String)
  | printText (contents : String)
  | printValue (value : String)
  | conditional (test : Sketch.Test)
  | body
  | alternative
  | loop (test : Sketch.Test)
  | other (name : String)
deriving DecidableEq, Repr

/-- One line of the tree. -/
@[ext] structure Row where
  depth : Nat
  label : Label
deriving DecidableEq, Repr

namespace Sketch

/-- What the statement's own line says. -/
def label : Sketch → Label
  | .declaration name value => .declaration name value
  | .printText contents => .printText contents
  | .printValue value => .printValue value
  | .conditional test _ _ => .conditional test
  | .loop test _ => .loop test
  | .other name => .other name

/-- The lines for a second block, which is not shown if it has none. -/
def second (depth : Nat) : List Row → List Row
  | [] => []
  | row :: rows => ⟨depth, .alternative⟩ :: row :: rows

mutual

/-- The lines for the blocks of a statement that stands at some depth. -/
def blockRows (depth : Nat) : Sketch → List Row
  | .conditional _ body alternative =>
    ⟨depth + 1, .body⟩ :: (rows (depth + 2) body ++
      second (depth + 1) (rows (depth + 2) alternative))
  | .loop _ body => rows (depth + 1) body
  | .declaration .. | .printText _ | .printValue _ | .other _ => []

/-- The lines for the statements of a block. -/
def rows (depth : Nat) : List Sketch → List Row
  | [] => []
  | s :: rest => ⟨depth, s.label⟩ :: (s.blockRows depth ++ rows depth rest)

end

/-! The lines tell the tree: a block ends at the first line that is less deep than
its statements. -/

/-- What follows begins with a line that is less deep, or there is nothing. -/
def Above (depth : Nat) (below : List Row) : Prop := ∀ row ∈ below.head?, row.depth < depth

theorem above_nil (depth : Nat) : Above depth [] := by
  intro row hrow
  cases hrow

theorem above_cons {depth : Nat} {row : Row} (h : row.depth < depth) (below : List Row) :
    Above depth (row :: below) := by
  rintro _ ⟨⟩
  exact h

theorem Above.mono {depth deeper : Nat} {below : List Row} (h : Above depth below)
    (hle : depth ≤ deeper) : Above deeper below := by
  intro row hrow
  exact Nat.lt_of_lt_of_le (h row hrow) hle

/-- A line that stands at the depth itself does not follow. -/
theorem Above.ne_cons {depth : Nat} {below more : List Row} {label : Label}
    (h : Above depth below) : below ≠ ⟨depth, label⟩ :: more := by
  rintro rfl
  exact Nat.lt_irrefl depth (h _ rfl)

theorem above_rows_append {depth : Nat} {below : List Row} (h : Above depth below)
    (sketches : List Sketch) : Above (depth + 1) (rows depth sketches ++ below) := by
  cases sketches with
  | nil => exact h.mono (Nat.le_succ depth)
  | cons s rest =>
    rw [rows]
    exact above_cons (Nat.lt_succ_self depth) _

theorem above_second_append {depth : Nat} {below : List Row} (h : Above depth below)
    (lines : List Row) : Above (depth + 1) (second depth lines ++ below) := by
  cases lines with
  | nil => exact h.mono (Nat.le_succ depth)
  | cons row lines => exact above_cons (Nat.lt_succ_self depth) _

/-- The line that opens a second block shows whether there is one. -/
theorem second_append_inj {depth : Nat} {lines lines' x y : List Row} (hx : Above depth x)
    (hy : Above depth y) (h : second depth lines ++ x = second depth lines' ++ y) :
    lines ++ x = lines' ++ y := by
  cases lines with
  | nil =>
    cases lines' with
    | nil => exact h
    | cons row lines' => exact absurd h hx.ne_cons
  | cons row lines =>
    cases lines' with
    | nil => exact absurd h.symm hy.ne_cons
    | cons row' lines' => exact (List.cons.inj h).2

mutual

/-- A statement's own line and those of its blocks tell the statement, and they show
where they end. -/
theorem blockRows_append_inj : ∀ (s t : Sketch) {depth : Nat} {x y : List Row},
    Above (depth + 1) x → Above (depth + 1) y → s.label = t.label →
    s.blockRows depth ++ x = t.blockRows depth ++ y → s = t ∧ x = y
  | .conditional test body alternative, t, depth, x, y, hx, hy, hlabel, h => by
    cases t with
    | conditional test' body' alternative' =>
      cases hlabel
      simp only [blockRows, List.cons_append, List.append_assoc, List.cons.injEq, true_and] at h
      obtain ⟨rfl, hsecond⟩ := rows_append_inj body body' (above_second_append hx _)
        (above_second_append hy _) h
      obtain ⟨rfl, rfl⟩ := rows_append_inj alternative alternative' (hx.mono (Nat.le_succ _))
        (hy.mono (Nat.le_succ _)) (second_append_inj hx hy hsecond)
      exact ⟨rfl, rfl⟩
    | _ => cases hlabel
  | .loop test body, t, depth, x, y, hx, hy, hlabel, h => by
    cases t with
    | loop test' body' =>
      cases hlabel
      obtain ⟨rfl, rfl⟩ := rows_append_inj body body' hx hy h
      exact ⟨rfl, rfl⟩
    | _ => cases hlabel
  | .declaration .., t, depth, x, y, _, _, hlabel, h => by
    cases t <;> cases hlabel
    exact ⟨rfl, h⟩
  | .printText .., t, depth, x, y, _, _, hlabel, h => by
    cases t <;> cases hlabel
    exact ⟨rfl, h⟩
  | .printValue .., t, depth, x, y, _, _, hlabel, h => by
    cases t <;> cases hlabel
    exact ⟨rfl, h⟩
  | .other .., t, depth, x, y, _, _, hlabel, h => by
    cases t <;> cases hlabel
    exact ⟨rfl, h⟩

/-- The lines of a block show where it ends, if a line that is less deep or nothing
follows. -/
theorem rows_append_inj : ∀ (as bs : List Sketch) {depth : Nat} {x y : List Row},
    Above depth x → Above depth y → rows depth as ++ x = rows depth bs ++ y → as = bs ∧ x = y
  | [], [], depth, x, y, _, _, h => ⟨rfl, h⟩
  | [], b :: bs, depth, x, y, hx, _, h => by
    -- where the first block ends, a statement of the second would stand at its depth
    rw [rows, rows, List.nil_append, List.cons_append] at h
    exact absurd h hx.ne_cons
  | a :: as, [], depth, x, y, _, hy, h => by
    rw [rows, rows, List.nil_append, List.cons_append] at h
    exact absurd h.symm hy.ne_cons
  | a :: as, b :: bs, depth, x, y, hx, hy, h => by
    simp only [rows, List.cons_append, List.append_assoc, List.cons.injEq, Row.mk.injEq,
      true_and] at h
    obtain ⟨hlabel, hblocks⟩ := h
    obtain ⟨rfl, hrest⟩ := blockRows_append_inj a b (above_rows_append hx as)
      (above_rows_append hy bs) hlabel hblocks
    obtain ⟨rfl, rfl⟩ := rows_append_inj as bs hx hy hrest
    exact ⟨rfl, rfl⟩

end

theorem rows_injective {depth : Nat} {as bs : List Sketch} (h : rows depth as = rows depth bs) :
    as = bs :=
  (rows_append_inj as bs (above_nil depth) (above_nil depth) (congrArg (· ++ []) h)).1

end Sketch

namespace Label

/-- The fixed words that the line begins with. -/
def opening : Label → String
  | .declaration .. => "declaration [name: "
  | .printText _ => "print \""
  | .printValue _ => "print ("
  | .conditional _ => "conditional ("
  | .body => "then"
  | .alternative => "else"
  | .loop _ => "loop ("
  | .other name => Text.lowercase name

/-- What the line says after its fixed words. -/
def details : Label → String
  | .declaration name value => name ++ ("] (" ++ (value ++ ")"))
  | .printText contents => contents ++ "\""
  | .printValue value => value ++ ")"
  | .conditional test | .loop test => test.text ++ ")"
  | .body | .alternative | .other _ => ""

def text (label : Label) : String := label.opening ++ label.details

end Label

def Row.line (row : Row) : String := indented row.depth row.label.text

namespace Sketch

theorem describe_eq (s : Statement) : s.describe = s.sketch.label.text := by
  cases s with
  | foreign | absent => exact String.append_empty.symm
  | _ =>
    simp only [Statement.sketch, label, Label.text, Label.opening, Label.details,
      ← String.append_assoc]
    rfl

theorem map_line_second (depth : Nat) (lines : List Row) :
    (second depth lines).map Row.line =
      if lines.isEmpty then [] else indented depth "else" :: lines.map Row.line := by
  cases lines <;> rfl

end Sketch

/-- The statement is shown in the lines of its sketch. -/
def Statement.Shown (s : Statement) : Prop :=
  ∀ depth : Nat, s.outlineLines depth =
    Row.line ⟨depth, s.sketch.label⟩ :: (s.sketch.blockRows depth).map Row.line

namespace Program

open Sketch

def Shown (p : List Statement) : Prop :=
  ∀ depth : Nat, outlineLines depth p = (rows depth (sketch p)).map Row.line

theorem isEmpty_rows (depth : Nat) (p : List Statement) :
    (rows depth (sketch p)).isEmpty = p.isEmpty := by
  cases p <;> rfl

theorem shown_nil : Shown [] := fun _ => rfl

theorem shown_cons {s : Statement} {rest : List Statement} (hs : s.Shown) (hrest : Shown rest) :
    Shown (s :: rest) := by
  intro depth
  rw [outlineLines, sketch, rows, List.map_cons, List.map_append, hs depth, hrest depth,
    List.cons_append]

/-- A statement without blocks is shown in one line. -/
theorem shown_of_plain {s : Statement}
    (houtline : ∀ depth, s.outlineLines depth = [indented depth s.describe])
    (hblocks : ∀ depth, s.sketch.blockRows depth = []) : s.Shown := by
  intro depth
  rw [houtline, hblocks, describe_eq]
  rfl

theorem shown_loop {body : List Statement} (hbody : Shown body) (test : Condition)
    (loc : Position) : (Statement.loop test body loc).Shown := by
  intro depth
  have hdeeper : outlineLines ((depth : Int) + 1) body =
      (rows (depth + 1) (sketch body)).map Row.line := hbody (depth + 1)
  rw [Statement.outlineLines, describe_eq, Statement.sketch, blockRows, hdeeper]
  rfl

theorem shown_conditional {body alternative : List Statement} (hbody : Shown body)
    (halternative : Shown alternative) (test : Condition) (loc : Position) :
    (Statement.conditional test body alternative loc).Shown := by
  intro depth
  have hdeeper : outlineLines ((depth : Int) + 2) body =
      (rows (depth + 2) (sketch body)).map Row.line := hbody (depth + 2)
  have hsecond : outlineLines ((depth : Int) + 2) alternative =
      (rows (depth + 2) (sketch alternative)).map Row.line := halternative (depth + 2)
  rw [Statement.outlineLines, describe_eq, Statement.sketch, blockRows, hdeeper, hsecond,
    List.map_cons, List.map_append, map_line_second, isEmpty_rows]
  rfl

end Program

namespace Grammar

open Program

mutual

theorem phrase_shown : ∀ phrase : Phrase, phrase.tree.Shown
  | .declaration .. | .printText .. | .printValue .. =>
    shown_of_plain (fun _ => rfl) (fun _ => rfl)
  | .conditional _ test body => by
    rw [Phrase.tree]
    exact shown_conditional (block_shown body) shown_nil _ _
  | .alternative _ test body _ other => by
    rw [Phrase.tree]
    exact shown_conditional (block_shown body) (block_shown other) _ _
  | .loop _ test body => by
    rw [Phrase.tree]
    exact shown_loop (block_shown body) _ _

theorem block_shown : ∀ block : Block Phrase, Shown (Block.tree block)
  | ⟨_, body, _⟩ => by
    rw [Block.tree]
    exact tree_shown body

/-- The tree of a program text is shown in the lines of its sketch. -/
theorem tree_shown : ∀ d : List Phrase, Shown (Derivation.tree d)
  | [] => shown_nil
  | phrase :: d => by
    rw [Derivation.tree]
    exact shown_cons (phrase_shown phrase) (tree_shown d)

end

end Grammar

end Crafter
