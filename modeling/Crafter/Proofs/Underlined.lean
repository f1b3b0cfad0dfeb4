import Crafter.Proofs.Place
import Crafter.Source.SyntaxError

/-! Places as lines and columns: the character at a place stands in that line of
the text, in that column, and what an excerpt underlines stands there too. -/
namespace Crafter

/-- The character stands at the place in the text. -/
def Source.Stands (source : String) (c : Char) (p : Position) : Prop :=
  ∃ before after, source.toList = before ++ c :: after ∧ p = .after before

namespace Text

theorem splitLines_ne_nil (cs : List Char) : splitLines cs ≠ [] := by
  cases cs with
  | nil => exact List.cons_ne_nil _ _
  | cons c cs =>
    rw [splitLines]
    split
    · exact List.cons_ne_nil _ _
    · split <;> exact List.cons_ne_nil _ _

theorem splitLines_feed (cs : List Char) : splitLines ('\n' :: cs) = [] :: splitLines cs :=
  if_pos rfl

theorem splitLines_other {c : Char} (hc : c ≠ '\n') {cs line : List Char}
    {lines : List (List Char)} (h : splitLines cs = line :: lines) :
    splitLines (c :: cs) = (c :: line) :: lines := by
  rw [splitLines, if_neg hc, h]

/-- The line in which a character stands is found by counting line feeds, and its
column by counting the characters of that line before it. -/
theorem splitLines_stands (before : List Char) {c : Char} (hc : c ≠ '\n') (after : List Char)
    (p : Position) : ∃ (n k : Nat) (row : List Char),
      (splitLines (before ++ c :: after))[n]? = some row ∧ row[k]? = some c ∧
      (p.advanceAll before).line = p.line + n ∧
      (p.advanceAll before).column = (if n = 0 then p.column else 1) + k := by
  -- from the front of the text: the start place moves along with the induction
  induction before generalizing p with
  | nil =>
    obtain ⟨line, lines, hlines⟩ := List.exists_cons_of_ne_nil (splitLines_ne_nil after)
    refine ⟨0, 0, c :: line, ?_, rfl, ?_, ?_⟩
    · rw [List.nil_append, splitLines_other hc hlines]
      rfl
    · rw [Position.advanceAll_nil]
      omega
    · rw [Position.advanceAll_nil, if_pos rfl]
      omega
  | cons d before ih =>
    obtain ⟨n, k, line, hline, hk, hrow, hcolumn⟩ := ih (p.advance d)
    rw [List.cons_append, Position.advanceAll_cons]
    by_cases hd : d = '\n'
    · subst hd
      have hadvance : p.advance '\n' = ⟨p.line + 1, 1⟩ := if_pos rfl
      rw [hadvance] at hrow hcolumn ⊢
      refine ⟨n + 1, k, line, ?_, hk, ?_, ?_⟩
      · rw [splitLines_feed]
        exact hline
      · rw [hrow]
        dsimp only
        omega
      · rw [hcolumn, if_neg (Nat.succ_ne_zero n)]
        split <;> rfl
    · have hadvance : p.advance d = ⟨p.line, p.column + 1⟩ := if_neg hd
      rw [hadvance] at hrow hcolumn ⊢
      obtain ⟨first, lines, hlines⟩ :=
        List.exists_cons_of_ne_nil (splitLines_ne_nil (before ++ c :: after))
      rw [splitLines_other hd hlines]
      rw [hlines] at hline
      cases n with
      | zero =>
        cases hline
        refine ⟨0, k + 1, d :: line, rfl, hk, hrow, ?_⟩
        rw [hcolumn, if_pos rfl, if_pos rfl]
        dsimp only
        omega
      | succ n => exact ⟨n + 1, k, line, hline, hk, hrow, hcolumn⟩

end Text

namespace Source

/-- The line and column of a place lead to the character that stands there. -/
theorem stands_line {source : String} {c : Char} {p : Position} (h : Stands source c p)
    (hc : c ≠ '\n') : ∃ (n k : Nat) (line : String), (Text.linesOf source)[n]? = some line ∧
      line.toList[k]? = some c ∧ p.line = n + 1 ∧ p.column = k + 1 := by
  obtain ⟨before, after, hsource, rfl⟩ := h
  obtain ⟨n, k, line, hline, hk, hrow, hcolumn⟩ :=
    Text.splitLines_stands before hc after .first
  rw [Position.advanceAll_first] at hrow hcolumn
  refine ⟨n, k, String.ofList line, ?_, ?_, ?_, ?_⟩
  · unfold Text.linesOf
    rw [hsource, List.getElem?_map, hline]
    rfl
  · rw [String.toList_ofList]
    exact hk
  · rw [hrow]
    change (1 : Int) + n = n + 1
    omega
  · have hfirst : (if n = 0 then Position.first.column else 1) = 1 := by split <;> rfl
    rw [hcolumn, hfirst]
    omega

/-- Rows are numbered from the first one on. -/
theorem mem_zipIdx_range {lines : List String} {first : Nat} {row : String × Nat}
    (h : row ∈ lines.zipIdx first) :
    row.1 ∈ lines ∧ first ≤ row.2 ∧ row.2 < first + lines.length := by
  obtain ⟨hfirst, hlast, hget⟩ := List.mem_zipIdx h
  refine ⟨?_, hfirst, by omega⟩
  rw [hget]
  exact List.getElem_mem _

/-- Of numbered rows, those from a number on are all but the ones before it. -/
theorem length_filter_zipIdx (lines : List String) (first start : Nat) :
    ((lines.zipIdx first).filter fun row => decide (start ≤ row.2)).length =
      lines.length - (start - first) := by
  induction lines generalizing first with
  | nil => simp
  | cons line lines ih =>
    have hmore := ih (first + 1)
    rw [List.zipIdx_cons, List.filter_cons, List.length_cons]
    dsimp only
    by_cases hstart : start ≤ first
    · rw [if_pos (decide_eq_true hstart), List.length_cons, hmore]
      omega
    · rw [if_neg (by simpa using hstart), hmore]
      omega

/-- Rows that are not the line of the place are shown behind their numbers, with
nothing below them. -/
theorem flatMap_elsewhere {rows : List (String × Nat)} {place : Position} (below : List String)
    (h : ∀ row ∈ rows, (row.2 : Int) ≠ place.line) :
    (rows.flatMap fun row => if (row.2 : Int) = place.line then numberedLine row.2 row.1 :: below
      else [numberedLine row.2 row.1]) = rows.map fun row => numberedLine row.2 row.1 := by
  induction rows with
  | nil => rfl
  | cons row rows ih =>
    rw [List.flatMap_cons, List.map_cons, ih fun row hmem => h row (List.mem_cons_of_mem _ hmem),
      if_neg (h row List.mem_cons_self), List.singleton_append]

/-- The line of a place is shown behind its number, with the carets right below it.
Above it stand as many lines as the text has there, up to the radius. -/
theorem excerpt_shows {source line : String} {n : Nat}
    (hline : (Text.linesOf source)[n]? = some line) {place : Position} (hplace : place.line = n + 1)
    (endColumn : Option Int) {radius : Int} (hradius : 0 ≤ radius) :
    ∃ above below : List (String × Nat), above.length = min n radius.toNat ∧
      (∀ row ∈ above ++ below, row.1 ∈ Text.linesOf source) ∧
      excerpt source place endColumn radius =
        Text.joinLines ((above.map fun row => numberedLine row.2 row.1) ++
          numberedLine (n + 1) line :: caretLine place.column endColumn ::
            below.map fun row => numberedLine row.2 row.1) := by
  obtain ⟨hn, hget⟩ := List.getElem?_eq_some_iff.mp hline
  have hrange : ¬ (place.line < 1 ∨ ((Text.linesOf source).length : Int) < place.line) := by omega
  unfold excerpt
  dsimp only
  rw [if_neg hrange]
  let near : String × Nat → Bool := fun row =>
    decide (place.line - radius ≤ row.2) && decide ((row.2 : Int) ≤ place.line + radius)
  have hlines : Text.linesOf source =
      (Text.linesOf source).take n ++ line :: (Text.linesOf source).drop (n + 1) := by
    rw [← hget, List.getElem_cons_drop, List.take_append_drop]
  have hlength : ((Text.linesOf source).take n).length = n := by
    rw [List.length_take]
    omega
  generalize (Text.linesOf source).take n = front at hlines hlength
  generalize (Text.linesOf source).drop (n + 1) = back at hlines
  have hrows : (Text.linesOf source).zipIdx 1 =
      front.zipIdx 1 ++ (line, n + 1) :: back.zipIdx (n + 2) := by
    rw [hlines, List.zipIdx_append, List.zipIdx_cons, hlength, Nat.add_comm 1 n]
  have hmark : ((n + 1 : Nat) : Int) = place.line := by omega
  have hown : near (line, n + 1) = true := by
    simp only [near, Bool.and_eq_true, decide_eq_true_iff]
    omega
  have hfront : ∀ row ∈ (front.zipIdx 1).filter near, row.1 ∈ front ∧ row.2 ≤ n := by
    intro row hrow
    have hrange := mem_zipIdx_range (List.mem_filter.mp hrow).1
    exact ⟨hrange.1, by omega⟩
  have hback : ∀ row ∈ (back.zipIdx (n + 2)).filter near, row.1 ∈ back ∧ n + 2 ≤ row.2 := by
    intro row hrow
    have hrange := mem_zipIdx_range (List.mem_filter.mp hrow).1
    exact ⟨hrange.1, hrange.2.1⟩
  refine ⟨(front.zipIdx 1).filter near, (back.zipIdx (n + 2)).filter near, ?_, ?_, ?_⟩
  · -- in front of the place only the radius counts
    have hnear : (front.zipIdx 1).filter near =
        (front.zipIdx 1).filter fun row => decide (n + 1 - radius.toNat ≤ row.2) := by
      apply List.filter_congr
      intro row hrow
      have hrange := mem_zipIdx_range hrow
      simp only [near, ← Bool.decide_and, decide_eq_decide]
      omega
    rw [hnear, length_filter_zipIdx, hlength]
    omega
  · intro row hrow
    rw [hlines]
    rcases List.mem_append.mp hrow with hrow | hrow
    · exact List.mem_append_left _ (hfront row hrow).1
    · exact List.mem_append_right _ (List.mem_cons_of_mem _ (hback row hrow).1)
  · have hsplit : ((Text.linesOf source).zipIdx 1).filter near = (front.zipIdx 1).filter near ++
        (line, n + 1) :: (back.zipIdx (n + 2)).filter near := by
      rw [hrows, List.filter_append, List.filter_cons_of_pos hown]
    change Text.joinLines ((((Text.linesOf source).zipIdx 1).filter near).flatMap _) = _
    rw [hsplit, List.flatMap_append, List.flatMap_cons]
    dsimp only
    rw [if_pos hmark, flatMap_elsewhere, flatMap_elsewhere]
    · rfl
    · intro row hrow
      have := (hback row hrow).2
      omega
    · intro row hrow
      have := (hfront row hrow).2
      omega

/-- The carets stand below the columns from the first to the last one. -/
theorem caretLine_eq {column : Int} {endColumn : Option Int} (hcolumn : 1 ≤ column)
    (hle : column ≤ endColumn.getD column) : caretLine column endColumn =
      String.ofList (List.replicate (6 + (column - 1).toNat) ' ' ++
        List.replicate (endColumn.getD column - column + 1).toNat '^') := by
  unfold caretLine
  generalize hlast : endColumn.getD column = last at hle ⊢
  rw [← List.replicate_append_replicate]
  dsimp only
  split
  · change column = last at hlast
    rw [hlast]
    congr 3
    omega
  · change (0 : Int) = last at hlast
    omega
  · next stop _ =>
    change stop = last at hlast
    rw [hlast]
    congr 3
    omega

end Source

theorem Text.joinLines_ne_empty (above : List String) {line : String} (h : line ≠ "")
    (below : List String) : Text.joinLines (above ++ line :: below) ≠ "" := by
  have hjoin (a b : String) (rest : List String) : Text.joinLines (a :: b :: rest) ≠ "" := by
    intro heq
    have hlist := congrArg String.toList heq
    unfold Text.joinLines at hlist
    rw [String.intercalate_cons_cons, String.toList_append, String.toList_append] at hlist
    exact absurd (List.append_eq_nil_iff.mp (List.append_eq_nil_iff.mp hlist).1).2 (by decide)
  match above, below with
  | [], [] =>
    unfold Text.joinLines
    rwa [List.nil_append, String.intercalate_singleton]
  | [], _ :: _ => exact hjoin _ _ _
  | [_], _ => exact hjoin _ _ _
  | _ :: _ :: _, _ => exact hjoin _ _ _

namespace Diagnostic

/-- The last column that is underlined: the end column if the diagnostic ends on
the line where it starts, else the one column where it starts. -/
def lastColumn (d : Diagnostic) : Int :=
  if d.endLine = some d.start.line then d.endColumn.getD d.start.column else d.start.column

/-- The text shows the line of the diagnostic under its number, and below it
carets from the first to the last underlined column. All of these columns lie in
the line. -/
def Underlines (d : Diagnostic) (source shown : String) : Prop :=
  ∃ (n : Nat) (line : String), (Text.linesOf source)[n]? = some line ∧
    d.start.line = n + 1 ∧ 1 ≤ d.start.column ∧ d.start.column ≤ d.lastColumn ∧
    d.lastColumn ≤ line.toList.length ∧
    ∃ above below, shown = Text.joinLines (above ++ Source.numberedLine (n + 1) line ::
      String.ofList (List.replicate (6 + (d.start.column - 1).toNat) ' ' ++
        List.replicate (d.lastColumn - d.start.column + 1).toNat '^') :: below)

/-- A diagnostic whose first and last underlined character stand in the source
has an excerpt that underlines them. -/
theorem exists_excerpt {d : Diagnostic} {source : String} {first last : Char}
    (hfirst : Source.Stands source first d.start) (hne : first ≠ '\n')
    (hlast : Source.Stands source last ⟨d.start.line, d.lastColumn⟩) (hne' : last ≠ '\n')
    (hle : d.start.column ≤ d.lastColumn) (hend : d.endLine = none → d.endColumn = none) :
    ∃ shown, d.excerpt source = some shown ∧ shown ≠ "" ∧ d.Underlines source shown := by
  obtain ⟨n, k, line, hline, _, hrow, hcolumn⟩ := Source.stands_line hfirst hne
  obtain ⟨n', k', line', hline', hk', hrow', hcolumn'⟩ := Source.stands_line hlast hne'
  have hn : n' = n := by
    dsimp only at hrow'
    omega
  rw [hn, hline] at hline'
  cases hline'
  obtain ⟨hk', _⟩ := List.getElem?_eq_some_iff.mp hk'
  dsimp only at hcolumn'
  let stop := if d.endLine = none ∨ d.endLine = some d.start.line then d.endColumn else none
  have hstop : stop.getD d.start.column = d.lastColumn := by
    unfold stop lastColumn
    by_cases hline : d.endLine = some d.start.line
    · rw [if_pos (Or.inr hline), if_pos hline]
    · rw [if_neg hline]
      by_cases hnone : d.endLine = none
      · rw [if_pos (Or.inl hnone), hend hnone]
        rfl
      · rw [if_neg (not_or.mpr ⟨hnone, hline⟩)]
        rfl
  have hradius : 0 ≤ Source.radius := by decide
  obtain ⟨_, _, -, -, hexcerpt⟩ := Source.excerpt_shows hline hrow stop hradius
  rw [Source.caretLine_eq (by omega) (by omega), hstop] at hexcerpt
  have hnumbered : Source.numberedLine (n + 1) line ≠ "" := by
    intro heq
    have hlist := congrArg String.toList heq
    unfold Source.numberedLine at hlist
    rw [String.toList_append, String.toList_append] at hlist
    exact absurd (List.append_eq_nil_iff.mp (List.append_eq_nil_iff.mp hlist).1).2 (by decide)
  have hshown : Source.excerpt source d.start stop Source.radius ≠ "" := by
    rw [hexcerpt]
    exact Text.joinLines_ne_empty _ hnumbered _
  exact ⟨_, if_neg hshown, hshown, n, line, hline, hrow, by omega, hle, by omega, _, _, hexcerpt⟩

end Diagnostic

end Crafter
