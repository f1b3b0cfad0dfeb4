import Crafter.Proofs.Underlined

/-! The carets of an excerpt stand below the character of their column as long as
the number of the line fits the four columns that are kept for it. -/
namespace Crafter

namespace Text

/-- A line feed closes the line in front of it. -/
theorem splitLines_closed {line : List Char} (h : '\n' ∉ line) (rest : List Char) :
    splitLines (line ++ '\n' :: rest) = line :: splitLines rest := by
  induction line with
  | nil => exact splitLines_feed rest
  | cons c line ih =>
    obtain ⟨hc, hline⟩ := not_or.mp (List.mem_cons.not.mp h)
    exact splitLines_other (Ne.symm hc) (ih hline)

theorem splitLines_single {line : List Char} (h : '\n' ∉ line) : splitLines line = [line] := by
  induction line with
  | nil => rfl
  | cons c line ih =>
    obtain ⟨hc, hline⟩ := not_or.mp (List.mem_cons.not.mp h)
    exact splitLines_other (Ne.symm hc) (ih hline)

theorem no_feed_of_mem_splitLines {cs line : List Char} (h : line ∈ splitLines cs) :
    '\n' ∉ line := by
  induction cs generalizing line with
  | nil =>
    rw [splitLines, List.mem_singleton] at h
    rw [h]
    exact List.not_mem_nil
  | cons c cs ih =>
    obtain ⟨first, more, hlines⟩ := List.exists_cons_of_ne_nil (splitLines_ne_nil cs)
    rw [hlines] at ih
    by_cases hc : c = '\n'
    · rw [hc, splitLines_feed, hlines] at h
      rcases List.mem_cons.mp h with rfl | h
      · exact List.not_mem_nil
      · exact ih h
    · rw [splitLines_other hc hlines] at h
      rcases List.mem_cons.mp h with rfl | h
      · exact List.mem_cons.not.mpr (not_or.mpr ⟨Ne.symm hc, ih List.mem_cons_self⟩)
      · exact ih (List.mem_cons_of_mem _ h)

/-- A line of a text contains no line feed. -/
theorem no_feed_of_mem_linesOf {text line : String} (h : line ∈ linesOf text) :
    '\n' ∉ line.toList := by
  obtain ⟨chars, hchars, rfl⟩ := List.mem_map.mp h
  rw [String.toList_ofList]
  exact no_feed_of_mem_splitLines hchars

/-- Lines that contain no line feed are found again in the text that they are joined
to. -/
theorem linesOf_joinLines {lines : List String} (hne : lines ≠ [])
    (h : ∀ line ∈ lines, '\n' ∉ line.toList) : linesOf (joinLines lines) = lines := by
  induction lines with
  | nil => exact absurd rfl hne
  | cons line more ih =>
    have hline := h line List.mem_cons_self
    unfold joinLines linesOf at ih ⊢
    cases more with
    | nil =>
      rw [String.intercalate_singleton, splitLines_single hline, List.map_singleton,
        String.ofList_toList]
    | cons next more =>
      have hmore := ih (List.cons_ne_nil _ _) fun line hmem => h line (List.mem_cons_of_mem _ hmem)
      have hchars : ("\n".intercalate (line :: next :: more)).toList =
          line.toList ++ '\n' :: ("\n".intercalate (next :: more)).toList := by
        rw [String.intercalate_cons_cons, String.toList_append, String.toList_append,
          List.append_assoc]
        rfl
      rw [hchars, splitLines_closed hline, List.map_cons, hmore, String.ofList_toList]

/-- Empty lines at the front of a text. -/
theorem splitLines_feeds (count : Nat) (cs : List Char) :
    splitLines (List.replicate count '\n' ++ cs) = List.replicate count [] ++ splitLines cs := by
  induction count with
  | zero => rfl
  | succ count ih =>
    rw [List.replicate_succ, List.cons_append, splitLines_feed, ih]
    rfl

end Text

namespace Source

/-- What stands in front of a line that is shown: its number, right-aligned, a colon
and a blank. -/
def margin (number : Nat) : List Char :=
  (Text.alignRight 4 (toString number)).toList ++ [':', ' ']

theorem toList_numberedLine (number : Nat) (line : String) :
    (numberedLine number line).toList = margin number ++ line.toList := by
  unfold numberedLine margin
  rw [String.toList_append, String.toList_append]
  rfl

theorem length_margin (number : Nat) :
    (margin number).length = max 4 number.repr.length + 2 := by
  have hnumber : (toString number).length = number.repr.length := rfl
  unfold margin Text.alignRight
  rw [List.length_append, String.toList_append, String.toList_ofList, List.length_append,
    List.length_replicate, String.length_toList, hnumber]
  dsimp only [List.length_cons, List.length_nil]
  omega

/-- Only a number of more than four digits takes more room than is kept for it. -/
theorem length_margin_eq_iff (number : Nat) : (margin number).length = 6 ↔ number < 10000 := by
  have hdigits : number.repr.length ≤ 4 ↔ number < 10 ^ 4 := Nat.length_repr_le_iff (by decide)
  rw [length_margin]
  omega

theorem no_feed_of_margin (number : Nat) : '\n' ∉ margin number := by
  have hdigits : '\n' ∉ (toString number).toList := by
    intro hmem
    change '\n' ∈ number.repr.toList at hmem
    rw [Nat.toList_repr] at hmem
    exact absurd (Nat.isDigit_of_mem_toDigits (by decide) (by decide) hmem) (by decide)
  unfold margin Text.alignRight
  simp only [String.toList_append, String.toList_ofList, List.mem_append, List.mem_replicate]
  rintro ((⟨_, hblank⟩ | hmem) | hmem)
  · exact absurd hblank (by decide)
  · exact hdigits hmem
  · exact absurd hmem (by decide)

theorem no_feed_of_numberedLine {number : Nat} {line : String} (h : '\n' ∉ line.toList) :
    '\n' ∉ (numberedLine number line).toList := by
  rw [toList_numberedLine, List.mem_append]
  rintro (hmem | hmem)
  · exact no_feed_of_margin number hmem
  · exact h hmem

/-- The caret line is blank up to its first caret; at least one caret is drawn. -/
theorem toList_caretLine (k : Nat) (endColumn : Option Int) :
    ∃ carets, (caretLine (k + 1) endColumn).toList =
      List.replicate (6 + k) ' ' ++ '^' :: List.replicate carets '^' := by
  obtain ⟨width, hline⟩ : ∃ width : Int, caretLine (k + 1) endColumn =
      String.ofList (List.replicate 6 ' ' ++ List.replicate ((k : Int) + 1 - 1).toNat ' ' ++
        List.replicate (max 1 width).toNat '^') := ⟨_, rfl⟩
  have hblanks : ((k : Int) + 1 - 1).toNat = k := by omega
  have hcarets : (max 1 width).toNat = (max 1 width).toNat - 1 + 1 := by omega
  refine ⟨(max 1 width).toNat - 1, ?_⟩
  rw [hline, String.toList_ofList, List.replicate_append_replicate, hblanks,
    ← List.replicate_succ, ← hcarets]

theorem no_feed_of_caretLine (k : Nat) (endColumn : Option Int) :
    '\n' ∉ (caretLine (k + 1) endColumn).toList := by
  obtain ⟨carets, hchars⟩ := toList_caretLine k endColumn
  rw [hchars]
  simp

/-- The first caret of the caret line. -/
theorem idxOf_caretLine (k : Nat) (endColumn : Option Int) :
    (caretLine (k + 1) endColumn).toList.idxOf '^' = 6 + k := by
  obtain ⟨carets, hchars⟩ := toList_caretLine k endColumn
  have hblanks : '^' ∉ List.replicate (6 + k) ' ' := by simp
  rw [hchars, List.idxOf_append, if_neg hblanks, List.idxOf_cons_self, List.length_replicate,
    Nat.zero_add]

/-- The shown line `upper` ends with the line of the source, and in the text below
it the first caret has the offset that the character in the given column has in
`upper`. -/
def CaretBelow (line : String) (column : Nat) (upper lower : String) : Prop :=
  ∃ (front : List Char) (c : Char), upper.toList = front ++ line.toList ∧
    line.toList[column - 1]? = some c ∧ '^' ∈ lower.toList ∧
    lower.toList.idxOf '^' = front.length + (column - 1)

/-- The carets keep six columns free for the number and what follows it. -/
theorem caretBelow_iff {line : String} {k : Nat} (hk : k < line.toList.length) (number : Nat)
    (endColumn : Option Int) :
    CaretBelow line (k + 1) (numberedLine number line) (caretLine (k + 1) endColumn) ↔
      number < 10000 := by
  have hcaret : '^' ∈ (caretLine (k + 1) endColumn).toList := by
    obtain ⟨carets, hchars⟩ := toList_caretLine k endColumn
    rw [hchars]
    simp
  have hidx := idxOf_caretLine k endColumn
  rw [← length_margin_eq_iff]
  constructor
  · rintro ⟨front, c, hupper, -, -, hoffset⟩
    rw [toList_numberedLine] at hupper
    rw [List.append_cancel_right hupper]
    omega
  · intro hmargin
    refine ⟨margin number, line.toList[k], toList_numberedLine number line,
      List.getElem?_eq_getElem hk, hcaret, ?_⟩
    rw [hidx, hmargin]
    omega

/-- Of the lines of an excerpt, the one that shows the line of the place and the one
with the carets. -/
theorem rows_of_excerpt {source line : String} {n : Nat}
    (hline : (Text.linesOf source)[n]? = some line) (k : Nat) (endColumn : Option Int)
    (radius : Nat) :
    let rows := Text.linesOf (excerpt source ⟨n + 1, k + 1⟩ endColumn radius)
    rows[min n radius]? = some (numberedLine (n + 1) line) ∧
      rows[min n radius + 1]? = some (caretLine (k + 1) endColumn) := by
  let place : Position := ⟨n + 1, k + 1⟩
  have hplace : place.line = n + 1 := rfl
  obtain ⟨above, below, hlength, hrows, hexcerpt⟩ :=
    excerpt_shows hline hplace endColumn (Int.natCast_nonneg radius)
  have hown : line ∈ Text.linesOf source := List.mem_of_getElem? hline
  have hjoined := Text.linesOf_joinLines (List.append_ne_nil_of_right_ne_nil
    (above.map fun row => numberedLine row.2 row.1) (List.cons_ne_nil (numberedLine (n + 1) line)
      (caretLine (k + 1) endColumn :: below.map fun row => numberedLine row.2 row.1)))
  have hcount : (above.map fun row => numberedLine row.2 row.1).length = min n radius := by
    rw [List.length_map, hlength]
    rfl
  intro rows
  have hall : rows = (above.map fun row => numberedLine row.2 row.1) ++
      numberedLine (n + 1) line :: caretLine (k + 1) endColumn ::
        below.map fun row => numberedLine row.2 row.1 := by
    unfold rows
    rw [hexcerpt]
    apply hjoined
    intro shown hshown
    simp only [List.mem_append, List.mem_cons, List.mem_map] at hshown
    rcases hshown with ⟨row, hrow, rfl⟩ | rfl | rfl | ⟨row, hrow, rfl⟩
    · exact no_feed_of_numberedLine
        (Text.no_feed_of_mem_linesOf (hrows row (List.mem_append_left _ hrow)))
    · exact no_feed_of_numberedLine (Text.no_feed_of_mem_linesOf hown)
    · exact no_feed_of_caretLine k endColumn
    · exact no_feed_of_numberedLine
        (Text.no_feed_of_mem_linesOf (hrows row (List.mem_append_right _ hrow)))
  rw [hall, ← hcount]
  constructor
  · rw [List.getElem?_append_right (Nat.le_refl _), Nat.sub_self]
    rfl
  · rw [List.getElem?_append_right (Nat.le_add_right _ 1), Nat.add_sub_cancel_left]
    rfl

/-- In an excerpt around a character of the source, the line of the character is
shown above a line of carets. The first caret stands below the character if and only
if the number of the line is below ten thousand: a longer number moves the shown
line to the right, and the carets stay where they are. -/
theorem excerpt_aligned_iff {source line : String} {n k : Nat}
    (hline : (Text.linesOf source)[n]? = some line) (hk : k < line.toList.length)
    (endColumn : Option Int) (radius : Nat) :
    let rows := Text.linesOf (excerpt source ⟨n + 1, k + 1⟩ endColumn radius)
    let upper := numberedLine (n + 1) line
    let lower := caretLine (k + 1) endColumn
    rows[min n radius]? = some upper ∧ rows[min n radius + 1]? = some lower ∧
      (CaretBelow line (k + 1) upper lower ↔ n + 1 < 10000) := by
  obtain ⟨hupper, hlower⟩ := rows_of_excerpt hline k endColumn radius
  exact ⟨hupper, hlower, caretBelow_iff hk (n + 1) endColumn⟩

theorem excerpt_aligned_iff_second :
    (Text.linesOf "maano\nx = y")[1]? = some "x = y" ∧ 4 < "x = y".toList.length ∧
      (Text.linesOf (excerpt "maano\nx = y" ⟨2, 5⟩ none 2))[1]? = some "   2: x = y" ∧
      (Text.linesOf (excerpt "maano\nx = y" ⟨2, 5⟩ none 2))[2]? = some "          ^" ∧
      CaretBelow "x = y" 5 "   2: x = y" "          ^" := by
  have hline : (Text.linesOf "maano\nx = y")[1]? = some "x = y" := by decide
  have hcolumn : 4 < "x = y".toList.length := by decide
  obtain ⟨hupper, hlower, haligned⟩ := excerpt_aligned_iff hline hcolumn none 2
  exact ⟨hline, hcolumn, hupper, hlower, haligned.mpr (by decide)⟩

/-- In line ten thousand the caret stands one column to the left of its character. -/
theorem caret_left_of_character : ∃ upper lower,
    (Text.linesOf (excerpt (String.ofList (List.replicate 9999 '\n' ++ ['x'])) ⟨10000, 1⟩ none
      0))[0]? = some upper ∧
    (Text.linesOf (excerpt (String.ofList (List.replicate 9999 '\n' ++ ['x'])) ⟨10000, 1⟩ none
      0))[1]? = some lower ∧
    upper = "10000: x" ∧ lower = "      ^" ∧ ¬ CaretBelow "x" 1 upper lower := by
  have hline : (Text.linesOf (String.ofList (List.replicate 9999 '\n' ++ ['x'])))[9999]? =
      some "x" := by
    unfold Text.linesOf
    rw [String.toList_ofList, Text.splitLines_feeds, List.getElem?_map,
      List.getElem?_append_right (Nat.le_of_eq List.length_replicate), List.length_replicate]
    rfl
  obtain ⟨hupper, hlower⟩ := rows_of_excerpt hline 0 none 0
  refine ⟨_, _, hupper, hlower, by decide, by decide, fun hbelow => ?_⟩
  exact absurd ((caretBelow_iff (by decide) 10000 none).mp hbelow) (by decide)

end Source

end Crafter
