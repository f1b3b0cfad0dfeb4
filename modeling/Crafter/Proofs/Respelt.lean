import Crafter.Proofs.Phrases
import Crafter.Proofs.Renaming
import Crafter.Proofs.Scanning
import Mathlib.Data.List.Forall2

/-! Sources in which the names are spelt differently. Replacing every name by
another one leaves all other tokens, and all gaps, as they are; no two tokens run
together, and none changes its line. -/
namespace Crafter

/-- The second token is the first one under its new name, on the same line. -/
structure Token.Renamed (r : String → String) (t t' : Token) : Prop where
  lexeme : t'.lexeme = t.lexeme.rename r
  text : t.lexeme.names = [] → t'.span.text = t.span.text
  line : t'.span.start.line = t.span.start.line

instance (r : String → String) (t t' : Token) : Decidable (t.Renamed r t') :=
  decidable_of_iff (t'.lexeme = t.lexeme.rename r ∧
      (t.lexeme.names = [] → t'.span.text = t.span.text) ∧
      t'.span.start.line = t.span.start.line)
    ⟨fun ⟨lexeme, text, line⟩ => ⟨lexeme, text, line⟩, fun h => ⟨h.lexeme, h.text, h.line⟩⟩

namespace Source

/-- The names among the tokens. -/
def names (tokens : List Token) : List String := tokens.flatMap (·.lexeme.names)

theorem chars_of_name {chars : List Char} {name : String} (h : Spelt chars (.identifier name)) :
    chars = name.toList := by
  cases h with
  | identifier letters => exact String.toList_ofList.symm

/-- A name stays on its line. -/
theorem no_feed_of_name {chars : List Char} {name : String} (h : Spelt chars (.identifier name)) :
    '\n' ∉ chars := by
  rw [chars_of_name h]
  intro hmem
  have halpha := (isName_of_spelt h).alpha '\n' hmem
  cases halpha

theorem spelt_of_isName {name : String} (h : IsName name) :
    Spelt name.toList (.identifier name) := by
  have hspelt := Spelt.identifier name.toList h.nonempty h.alpha fun word => by
    rw [String.ofList_toList]
    exact h.other word
  rwa [String.ofList_toList] at hspelt

/-- The second tile is the first one, with another name if it is a name. -/
inductive Tile.Respells (r : String → String) : Tile → Tile → Prop where
  | other (tile : Tile) (h : tile.lexeme.names = []) : Respells r tile tile
  | name {tile tile' : Tile} {v : String} (gap : tile'.gap = tile.gap)
      (old : tile.lexeme = .identifier v) (new : tile'.lexeme = .identifier (r v)) :
      Respells r tile tile'

variable {r : String → String}

theorem exists_respells (tile : Tile) (h : ∀ v ∈ tile.lexeme.names, IsName (r v)) :
    ∃ tile', tile.Respells r tile' := by
  cases hlexeme : tile.lexeme with
  | identifier v =>
    have hname : IsName (r v) := by
      rw [hlexeme] at h
      exact h v List.mem_cons_self
    let tile' : Tile :=
      ⟨tile.gap, (r v).toList, .identifier (r v), tile.blank, spelt_of_isName hname⟩
    exact ⟨tile', .name rfl hlexeme rfl⟩
  | _ => exact ⟨tile, .other tile (by rw [hlexeme]; rfl)⟩

theorem exists_all_respells (tiles : List Tile)
    (h : ∀ tile ∈ tiles, ∀ v ∈ tile.lexeme.names, IsName (r v)) :
    ∃ tiles', List.Forall₂ (Tile.Respells r) tiles tiles' := by
  induction tiles with
  | nil => exact ⟨[], .nil⟩
  | cons tile tiles ih =>
    obtain ⟨tile', htile⟩ := exists_respells tile (h tile List.mem_cons_self)
    obtain ⟨tiles', htiles⟩ := ih fun other hother => h other (List.mem_cons_of_mem tile hother)
    exact ⟨tile' :: tiles', .cons htile htiles⟩

theorem alpha_of_name {tile : Tile} {v : String} (h : tile.lexeme = .identifier v) :
    tile.chars ≠ [] ∧ ∀ c ∈ tile.chars, c.isAlpha = true := by
  have hspelt := tile.spelt
  rw [h] at hspelt
  rw [chars_of_name hspelt]
  exact ⟨(isName_of_spelt hspelt).nonempty, (isName_of_spelt hspelt).alpha⟩

/-- Characters that no token tells apart: the same, or both letters. -/
def SameClass (c d : Char) : Prop := c = d ∨ c.isAlpha = true ∧ d.isAlpha = true

theorem extends_of_sameClass {chars : List Char} {c d : Char} (hclass : SameClass c d)
    (h : Extends chars d) : Extends chars c := by
  rcases hclass with rfl | ⟨hc, hd⟩
  · exact h
  · cases h with
    | letter alpha => exact .letter alpha hc
    | digit _ next => rw [isDigit_of_isAlpha hd] at next; cases next
    | equals => cases hd

theorem alpha_of_sameClass {c d : Char} (hclass : SameClass c d) (hd : d.isAlpha = true) :
    c.isAlpha = true := by
  rcases hclass with rfl | ⟨hc, _⟩
  · exact hd
  · exact hc

theorem gap_of_respells {tile tile' : Tile} (h : tile.Respells r tile') : tile'.gap = tile.gap := by
  cases h with
  | other => rfl
  | name gap => exact gap

theorem first_of_respells {tile tile' : Tile} (h : tile.Respells r tile') :
    ∃ c cs d ds, tile.chars = c :: cs ∧ tile'.chars = d :: ds ∧ SameClass c d := by
  cases h with
  | other =>
    obtain ⟨c, cs, hchars, _⟩ := solid_of_spelt tile.spelt
    exact ⟨c, cs, c, cs, hchars, hchars, Or.inl rfl⟩
  | name _ old new =>
    obtain ⟨hold, halpha⟩ := alpha_of_name old
    obtain ⟨hnew, halpha'⟩ := alpha_of_name new
    obtain ⟨c, cs, hchars⟩ := List.exists_cons_of_ne_nil hold
    obtain ⟨d, ds, hchars'⟩ := List.exists_cons_of_ne_nil hnew
    refine ⟨c, cs, d, ds, hchars, hchars', Or.inr ⟨halpha c ?_, halpha' d ?_⟩⟩
    · rw [hchars]
      exact List.mem_cons_self
    · rw [hchars']
      exact List.mem_cons_self

/-- Both texts begin alike, or both with a name. -/
theorem head?_respelt {tiles tiles' : List Tile} (h : List.Forall₂ (Tile.Respells r) tiles tiles')
    (rest : List Char) : ∀ d ∈ (layOut tiles' rest).head?,
      ∃ c ∈ (layOut tiles rest).head?, SameClass c d := by
  intro d hd
  cases h with
  | nil => exact ⟨d, hd, Or.inl rfl⟩
  | @cons tile tile' tiles tiles' htile htiles =>
    obtain ⟨c, cs, d', ds, hchars, hchars', hclass⟩ := first_of_respells htile
    rw [layOut, gap_of_respells htile, hchars'] at hd
    rw [layOut, hchars]
    cases hgap : tile.gap with
    | nil =>
      rw [hgap] at hd
      cases hd
      exact ⟨c, rfl, hclass⟩
    | cons g gap =>
      rw [hgap] at hd
      exact ⟨d, hd, Or.inl rfl⟩

theorem longest_respelt {tiles tiles' : List Tile}
    (h : List.Forall₂ (Tile.Respells r) tiles tiles') {rest : List Char}
    (longest : Longest tiles rest) : Longest tiles' rest := by
  induction h with
  | nil => trivial
  | @cons tile tile' tiles tiles' htile htiles ih =>
    obtain ⟨hnext, hrest⟩ := longest
    refine ⟨fun d hd hextends => ?_, ih hrest⟩
    obtain ⟨c, hc, hclass⟩ := head?_respelt htiles rest d hd
    apply hnext c hc
    cases htile with
    | other => exact extends_of_sameClass hclass hextends
    | name _ old new =>
      obtain ⟨hnonempty, halpha⟩ := alpha_of_name old
      obtain ⟨hnonempty', halpha'⟩ := alpha_of_name new
      have hd : d.isAlpha = true := (extends_letters_iff hnonempty' halpha' d).mp hextends
      exact (extends_letters_iff hnonempty halpha c).mpr (alpha_of_sameClass hclass hd)

theorem count_feeds_of_respells {tile tile' : Tile} (h : tile.Respells r tile') :
    tile'.chars.count '\n' = tile.chars.count '\n' := by
  have hnone {tile : Tile} {v : String} (h : tile.lexeme = .identifier v) :
      tile.chars.count '\n' = 0 := by
    have hspelt := tile.spelt
    rw [h] at hspelt
    exact List.count_eq_zero.mpr (no_feed_of_name hspelt)
  cases h with
  | other => rfl
  | name _ old new => rw [hnone old, hnone new]

theorem tokensAfter_renamed {tiles tiles' : List Tile}
    (h : List.Forall₂ (Tile.Respells r) tiles tiles') (file : String) {before before' : List Char}
    (hlines : before'.count '\n' = before.count '\n') :
    List.Forall₂ (Token.Renamed r) (tokensAfter file before tiles)
      (tokensAfter file before' tiles') := by
  induction h generalizing before before' with
  | nil => exact .nil
  | @cons tile tile' tiles tiles' htile htiles ih =>
    have hgap := gap_of_respells htile
    have hfeeds := count_feeds_of_respells htile
    have hstart : (Position.after (before' ++ tile'.gap)).line =
        (Position.after (before ++ tile.gap)).line := by
      unfold Position.after
      rw [hgap, List.count_append, List.count_append, hlines]
    refine .cons ?_ (ih ?_)
    · cases htile with
      | other hother =>
        have hsame : tile.lexeme = tile.lexeme.rename r := by
          cases hlexeme : tile.lexeme with
          | identifier v => rw [hlexeme] at hother; cases hother
          | _ => rfl
        exact ⟨hsame, fun _ => rfl, hstart⟩
      | name _ old new =>
        refine ⟨?_, fun hnone => ?_, hstart⟩
        · change tile'.lexeme = tile.lexeme.rename r
          rw [old, new]
          rfl
        · change tile.lexeme.names = [] at hnone
          rw [old] at hnone
          cases hnone
    · rw [List.count_append, List.count_append, List.count_append, List.count_append, hgap, hfeeds,
        hlines]

/-- Every source can be written with other names, line by line. -/
theorem exists_renamed {file source : String} {tokens : List Token}
    (h : scan file source = .ok tokens) (hnames : ∀ v ∈ names tokens, IsName (r v)) :
    ∃ source' tokens', scan file source' = .ok tokens' ∧
      List.Forall₂ (Token.Renamed r) tokens tokens' := by
  obtain ⟨t, hcomplete, rfl⟩ := exists_complete_tiling file h
  have htiles : ∀ tile ∈ t.tiles, ∀ v ∈ tile.lexeme.names, IsName (r v) := by
    intro tile htile v hv
    apply hnames
    have hlexemes : (t.tokens file).map (·.lexeme) = t.tiles.map (·.lexeme) :=
      map_tokensAfter (fun lexeme _ => lexeme) file [] t.tiles
    unfold names
    rw [← List.flatMap_map, hlexemes]
    exact List.mem_flatMap.mpr ⟨tile.lexeme, List.mem_map_of_mem htile, hv⟩
  obtain ⟨tiles', htiles'⟩ := exists_all_respells t.tiles htiles
  have hrest : t.rest = [] := by
    have hstops := t.stops
    rw [hcomplete] at hstops
    exact hstops.eq_nil
  have hlongest := longest_respelt htiles' t.longest
  rw [hrest] at hlongest
  let source' := String.ofList (layOut tiles' (t.gap ++ []))
  let u : Tiling source'.toList :=
    ⟨tiles', t.gap, [], none, t.blank, String.toList_ofList.symm, hlongest, .complete⟩
  have hscan : scan file source' = .ok (u.tokens file) := scan_complete file rfl
  exact ⟨source', u.tokens file, hscan, tokensAfter_renamed htiles' file rfl⟩

end Source

end Crafter
