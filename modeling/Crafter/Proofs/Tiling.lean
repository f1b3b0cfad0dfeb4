import Crafter.Proofs.Pieces
import Crafter.Proofs.Place

/-! A text as its tokens and the gaps between them. Every text has exactly one
tiling, which goes to its end or to the first place where no token starts; what
a scan gives can be read off it. -/
namespace Crafter.Source

/-- A token in a text, with the gap before it. -/
structure Tile where
  gap : List Char
  chars : List Char
  lexeme : Lexeme
  blank : ∀ c ∈ gap, c ∈ gapCharacters
  spelt : Spelt chars lexeme

/-- The text of tiles that stand before `rest`. -/
def layOut : List Tile → List Char → List Char
  | [], rest => rest
  | tile :: tiles, rest => tile.gap ++ (tile.chars ++ layOut tiles rest)

/-- No token could take in the character that follows it. -/
def Longest : List Tile → List Char → Prop
  | [], _ => True
  | tile :: tiles, rest =>
    (∀ c ∈ (layOut tiles rest).head?, ¬ Extends tile.chars c) ∧ Longest tiles rest

/-- Where tiles may stop: at the end of a text, or at an obstacle. -/
inductive Stops : List Char → Option Obstacle → Prop where
  | complete : Stops [] none
  | obstructed {rest : List Char} {obstacle : Obstacle} (h : Obstructs rest obstacle) :
      Stops rest (some obstacle)

theorem Stops.eq_nil {rest : List Char} (h : Stops rest none) : rest = [] := by
  cases h
  rfl

theorem Stops.obstructs {rest : List Char} {obstacle : Obstacle}
    (h : Stops rest (some obstacle)) : Obstructs rest obstacle := by
  cases h
  assumption

/-- A text as tiles, a last gap, and what no token starts in. -/
structure Tiling (text : List Char) where
  tiles : List Tile
  gap : List Char
  rest : List Char
  obstacle : Option Obstacle
  blank : ∀ c ∈ gap, c ∈ gapCharacters
  covers : layOut tiles (gap ++ rest) = text
  longest : Longest tiles (gap ++ rest)
  stops : Stops rest obstacle

/-- The token of a tile that has the characters `before` in front of it. -/
def Tile.token (file : String) (before : List Char) (tile : Tile) : Token where
  lexeme := tile.lexeme
  span := {
    file := file
    start := .after (before ++ tile.gap)
    stop := .after (before ++ tile.gap ++ tile.chars.dropLast)
    text := String.ofList tile.chars }

def tokensAfter (file : String) (before : List Char) : List Tile → List Token
  | [] => []
  | tile :: tiles =>
    tile.token file before :: tokensAfter file (before ++ tile.gap ++ tile.chars) tiles

namespace Tiling

variable {text : List Char}

/-- The tokens of a text, with the places that they take in it. -/
def tokens (file : String) (t : Tiling text) : List Token := tokensAfter file [] t.tiles

/-- The place where the tiles stop. -/
def place (t : Tiling text) : Position := .after (layOut t.tiles t.gap)

end Tiling

theorem scanFrom_gap (file : String) (p : Position) {gap : List Char}
    (blank : ∀ c ∈ gap, c ∈ gapCharacters) (cs : List Char) :
    scanFrom file p (gap ++ cs) = scanFrom file (p.advanceAll gap) cs := by
  induction gap generalizing p with
  | nil => rfl
  | cons c gap ih =>
    have hc : isGap c = true := (isGap_iff c).mpr (blank c List.mem_cons_self)
    rw [List.cons_append, scanFrom, if_pos hc, Position.advanceAll_cons]
    exact ih (p.advance c) fun d hd => blank d (List.mem_cons_of_mem c hd)

theorem scanFrom_obstacle (file : String) (p : Position) {c : Char} {cs : List Char}
    {obstacle : Obstacle} (solid : isGap c = false) (h : readPiece c cs = .error obstacle) :
    scanFrom file p (c :: cs) = .error (obstacle.failure c p) := by
  rw [scanFrom, if_neg (by rw [solid]; exact Bool.false_ne_true)]
  split
  · next hread => cases h.symm.trans hread; rfl
  · next hread => cases h.symm.trans hread

theorem scanFrom_piece (file : String) (p : Position) {c : Char} {cs : List Char} {piece : Piece}
    (solid : isGap c = false) (h : readPiece c cs = .ok piece) :
    scanFrom file p (c :: cs) =
      (scanFrom file (p.advanceAll piece.chars) piece.rest).map
        (⟨piece.lexeme, .ofChars file p piece.chars⟩ :: ·) := by
  rw [scanFrom, if_neg (by rw [solid]; exact Bool.false_ne_true)]
  split
  · next hread => cases h.symm.trans hread
  · next hread =>
    cases h.symm.trans hread
    dsimp only
    cases scanFrom file (p.advanceAll piece.chars) piece.rest <;> rfl

theorem layOut_append (tiles : List Tile) (xs ys : List Char) :
    layOut tiles (xs ++ ys) = layOut tiles xs ++ ys := by
  induction tiles with
  | nil => rfl
  | cons tile tiles ih => rw [layOut, layOut, ih, List.append_assoc, List.append_assoc]

/-- Tiles at the front of a text are read off one by one. -/
theorem scanFrom_layOut (file : String) (before : List Char) (tiles : List Tile)
    (tail : List Char) (longest : Longest tiles tail) :
    scanFrom file (.after before) (layOut tiles tail) =
      (scanFrom file (.after (before ++ layOut tiles [])) tail).map
        (tokensAfter file before tiles ++ ·) := by
  -- over the tiles, for any text before them: places are counted from the start
  induction tiles generalizing before with
  | nil =>
    rw [layOut, layOut, List.append_nil]
    cases scanFrom file (.after before) tail <;> rfl
  | cons tile tiles ih =>
    obtain ⟨hnext, hrest⟩ := longest
    obtain ⟨c, cs, hchars, solid⟩ := solid_of_spelt tile.spelt
    have happend : tile.chars ++ layOut tiles tail = c :: (cs ++ layOut tiles tail) := by
      rw [hchars, List.cons_append]
    have hread := readPiece_of_spelt tile.spelt hnext happend
    have hih := ih (before ++ tile.gap ++ tile.chars) hrest
    have htoken : (⟨tile.lexeme, .ofChars file (.after (before ++ tile.gap)) tile.chars⟩ : Token) =
        tile.token file before := by
      unfold Span.ofChars Tile.token
      rw [← Position.after_append]
    have htail : before ++ tile.gap ++ tile.chars ++ layOut tiles [] =
        before ++ layOut (tile :: tiles) [] := by
      rw [layOut, List.append_assoc, List.append_assoc]
    rw [htail] at hih
    calc scanFrom file (.after before) (layOut (tile :: tiles) tail)
      _ = scanFrom file (.after (before ++ tile.gap)) (tile.chars ++ layOut tiles tail) := by
        rw [layOut, scanFrom_gap file _ tile.blank, ← Position.after_append]
      _ = (scanFrom file (.after (before ++ tile.gap ++ tile.chars)) (layOut tiles tail)).map
            (tile.token file before :: ·) := by
        rw [happend, scanFrom_piece file _ solid hread, ← Position.after_append, htoken]
      _ = ((scanFrom file (.after (before ++ layOut (tile :: tiles) [])) tail).map
            (tokensAfter file (before ++ tile.gap ++ tile.chars) tiles ++ ·)).map
              (tile.token file before :: ·) := by
        rw [hih]
      _ = (scanFrom file (.after (before ++ layOut (tile :: tiles) [])) tail).map
            (tokensAfter file before (tile :: tiles) ++ ·) := by
        cases scanFrom file (.after (before ++ layOut (tile :: tiles) [])) tail <;> rfl

namespace Tiling

variable {text : List Char}

theorem scanFrom_eq (file : String) (t : Tiling text) :
    scanFrom file .first text =
      (scanFrom file t.place t.rest).map (t.tokens file ++ ·) := by
  have h := scanFrom_layOut file [] t.tiles (t.gap ++ t.rest) t.longest
  rw [t.covers, List.nil_append, scanFrom_gap file _ t.blank, ← Position.after_append,
    ← layOut_append, List.nil_append] at h
  exact h

theorem scanFrom_complete (file : String) {t : Tiling text} (h : t.obstacle = none) :
    scanFrom file .first text = .ok (t.tokens file) := by
  have hrest : t.rest = [] := Stops.eq_nil (h ▸ t.stops)
  rw [scanFrom_eq file t, hrest, scanFrom]
  change Except.ok (t.tokens file ++ []) = _
  rw [List.append_nil]

theorem scanFrom_obstructed (file : String) {t : Tiling text} {obstacle : Obstacle}
    (h : t.obstacle = some obstacle) : ∃ c, t.rest.head? = some c ∧
      scanFrom file .first text = .error (obstacle.failure c t.place) := by
  have hobstructs : Obstructs t.rest obstacle := Stops.obstructs (h ▸ t.stops)
  obtain ⟨c, cs, hrest, solid, hread⟩ := readPiece_of_obstructs hobstructs
  refine ⟨c, by rw [hrest]; rfl, ?_⟩
  rw [scanFrom_eq file t, hrest, scanFrom_obstacle file _ solid hread]
  rfl

end Tiling

/-! One tiling for every text. -/

theorem solid_of_stops {rest : List Char} {obstacle : Option Obstacle} (h : Stops rest obstacle) :
    ∀ c ∈ rest.head?, isGap c = false := by
  intro c hc
  cases h with
  | complete => cases hc
  | obstructed h =>
    obtain ⟨d, ds, rfl, solid, _⟩ := readPiece_of_obstructs h
    cases hc
    exact solid

theorem solid_of_spelt_append {chars : List Char} {lexeme : Lexeme} (h : Spelt chars lexeme)
    (cs : List Char) : ∀ c ∈ (chars ++ cs).head?, isGap c = false := by
  obtain ⟨d, ds, rfl, solid⟩ := solid_of_spelt h
  intro c hc
  cases hc
  exact solid

theorem not_stops_of_spelt {chars cs : List Char} {lexeme : Lexeme} {obstacle : Option Obstacle}
    (hspelt : Spelt chars lexeme) (longest : ∀ c ∈ cs.head?, ¬ Extends chars c) :
    ¬ Stops (chars ++ cs) obstacle := by
  intro h
  obtain ⟨c, ds, hchars, _⟩ := solid_of_spelt hspelt
  cases obstacle with
  | none =>
    rw [hchars] at h
    cases h.eq_nil
  | some obstacle =>
    obtain ⟨d, es, hd, _, hread⟩ := readPiece_of_obstructs h.obstructs
    cases (readPiece_of_spelt hspelt longest hd).symm.trans hread

/-- The characters of a gap end where a token or an obstacle begins. -/
theorem gap_append_inj {gap gap' cs cs' : List Char} (blank : ∀ c ∈ gap, c ∈ gapCharacters)
    (solid : ∀ c ∈ cs.head?, isGap c = false) (blank' : ∀ c ∈ gap', c ∈ gapCharacters)
    (solid' : ∀ c ∈ cs'.head?, isGap c = false) (h : gap ++ cs = gap' ++ cs') :
    gap = gap' ∧ cs = cs' :=
  append_inj_of_stop (fun c hc => (isGap_iff c).mpr (blank c hc)) solid
    (fun c hc => (isGap_iff c).mpr (blank' c hc)) solid' h

theorem layOut_inj {tiles tiles' : List Tile} {gap gap' rest rest' : List Char}
    {obstacle obstacle' : Option Obstacle} (longest : Longest tiles (gap ++ rest))
    (longest' : Longest tiles' (gap' ++ rest')) (blank : ∀ c ∈ gap, c ∈ gapCharacters)
    (blank' : ∀ c ∈ gap', c ∈ gapCharacters) (stops : Stops rest obstacle)
    (stops' : Stops rest' obstacle')
    (h : layOut tiles (gap ++ rest) = layOut tiles' (gap' ++ rest')) :
    tiles = tiles' ∧ gap = gap' ∧ rest = rest' := by
  induction tiles generalizing tiles' with
  | nil =>
    cases tiles' with
    | nil =>
      obtain ⟨hgap, hrest⟩ := gap_append_inj blank (solid_of_stops stops) blank'
        (solid_of_stops stops') h
      exact ⟨rfl, hgap, hrest⟩
    | cons tile' tiles' =>
      obtain ⟨_, hrest⟩ := gap_append_inj blank (solid_of_stops stops) tile'.blank
        (solid_of_spelt_append tile'.spelt _) h
      rw [hrest] at stops
      exact absurd stops (not_stops_of_spelt tile'.spelt longest'.1)
  | cons tile tiles ih =>
    cases tiles' with
    | nil =>
      obtain ⟨_, hrest⟩ := gap_append_inj tile.blank (solid_of_spelt_append tile.spelt _) blank'
        (solid_of_stops stops') h
      rw [← hrest] at stops'
      exact absurd stops' (not_stops_of_spelt tile.spelt longest.1)
    | cons tile' tiles' =>
      obtain ⟨hgap, hchars⟩ := gap_append_inj tile.blank (solid_of_spelt_append tile.spelt _)
        tile'.blank (solid_of_spelt_append tile'.spelt _) h
      obtain ⟨c, cs, hc, _⟩ := solid_of_spelt tile'.spelt
      have hcs : tile'.chars ++ layOut tiles' (gap' ++ rest') =
          c :: (cs ++ layOut tiles' (gap' ++ rest')) := by rw [hc, List.cons_append]
      have hread := readPiece_of_spelt tile.spelt longest.1 (hchars.trans hcs)
      rw [readPiece_of_spelt tile'.spelt longest'.1 hcs] at hread
      injection hread with hpiece
      injection hpiece with hlexeme hchars' hrest
      obtain ⟨htiles, hend⟩ := ih longest.2 longest'.2 hrest.symm
      obtain ⟨gap, chars, lexeme, _, _⟩ := tile
      cases hgap
      cases hlexeme
      cases hchars'
      cases htiles
      exact ⟨rfl, hend⟩

theorem stops_unique {rest : List Char} {a b : Option Obstacle} (ha : Stops rest a)
    (hb : Stops rest b) : a = b := by
  cases a with
  | none =>
    rw [ha.eq_nil] at hb
    cases b with
    | none => rfl
    | some b =>
      obtain ⟨c, cs, hnil, _⟩ := readPiece_of_obstructs hb.obstructs
      cases hnil
  | some a =>
    obtain ⟨c, cs, rfl, _, hread⟩ := readPiece_of_obstructs ha.obstructs
    cases b with
    | none => cases hb.eq_nil
    | some b =>
      obtain ⟨d, ds, hcons, _, hread'⟩ := readPiece_of_obstructs hb.obstructs
      cases hcons
      cases hread.symm.trans hread'
      rfl

theorem tiling_unique {text : List Char} (t u : Tiling text) : t = u := by
  obtain ⟨htiles, hgap, hrest⟩ := layOut_inj t.longest u.longest t.blank u.blank t.stops u.stops
    (t.covers.trans u.covers.symm)
  obtain ⟨tiles, gap, rest, obstacle, _, _, _, stops⟩ := t
  obtain ⟨tiles', gap', rest', obstacle', _, _, _, stops'⟩ := u
  cases htiles
  cases hgap
  cases hrest
  cases stops_unique stops stops'
  rfl

/-- A character more in front widens the first gap. -/
theorem exists_tiling_gap {c : Char} {cs : List Char} (hc : c ∈ gapCharacters) (t : Tiling cs) :
    Nonempty (Tiling (c :: cs)) := by
  have widen (gap : List Char) (blank : ∀ d ∈ gap, d ∈ gapCharacters) :
      ∀ d ∈ c :: gap, d ∈ gapCharacters := by
    intro d hd
    rcases List.mem_cons.mp hd with rfl | hd
    · exact hc
    · exact blank d hd
  obtain ⟨tiles, gap, rest, obstacle, blank, covers, longest, stops⟩ := t
  cases tiles with
  | nil =>
    have hcovers : layOut [] (c :: gap ++ rest) = c :: cs := congrArg (c :: ·) covers
    exact ⟨⟨[], c :: gap, rest, obstacle, widen gap blank, hcovers, trivial, stops⟩⟩
  | cons tile tiles =>
    let wide : Tile :=
      { tile with gap := c :: tile.gap, blank := widen tile.gap tile.blank }
    have hcovers : layOut (wide :: tiles) (gap ++ rest) = c :: cs := congrArg (c :: ·) covers
    exact ⟨⟨wide :: tiles, gap, rest, obstacle, blank, hcovers, longest, stops⟩⟩

theorem exists_tiling (text : List Char) : Nonempty (Tiling text) := by
  -- a token may leave any shorter rest, so that induction on the list would not do
  induction hn : text.length using Nat.strong_induction_on generalizing text with
  | _ n ih =>
    cases text with
    | nil => exact ⟨⟨[], [], [], none, nofun, rfl, trivial, .complete⟩⟩
    | cons c cs =>
      rw [List.length_cons] at hn
      by_cases hc : isGap c = true
      · obtain ⟨t⟩ := ih cs.length (by omega) cs rfl
        exact exists_tiling_gap ((isGap_iff c).mp hc) t
      have solid : isGap c = false := by simpa using hc
      cases hread : readPiece c cs with
      | error obstacle =>
        exact ⟨⟨[], [], c :: cs, some obstacle, nofun, rfl, trivial,
          .obstructed (obstructs_of_readPiece solid hread)⟩⟩
      | ok piece =>
        have hle := readPiece_rest_le hread
        have hsound := sound_of_readPiece hread
        obtain ⟨body, hchars, hbody⟩ := readPiece_chars hread
        obtain ⟨t⟩ := ih piece.rest.length (by omega) piece.rest rfl
        let tile : Tile := ⟨[], piece.chars, piece.lexeme, nofun, hsound.spelt⟩
        have hcovers : piece.chars ++ layOut t.tiles (t.gap ++ t.rest) = c :: cs := by
          rw [t.covers, hchars, List.cons_append, hbody]
        have hlongest : ∀ d ∈ (layOut t.tiles (t.gap ++ t.rest)).head?,
            ¬ Extends piece.chars d := by
          rw [t.covers]
          exact hsound.longest
        exact ⟨⟨tile :: t.tiles, t.gap, t.rest, t.obstacle, t.blank, hcovers,
          ⟨hlongest, t.longest⟩, t.stops⟩⟩

end Crafter.Source
