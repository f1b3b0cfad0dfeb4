import Crafter.Proofs.Counterpart
import Crafter.Proofs.Earliest

/-! Layout does not matter. Two sources that consist of the same tokens, with
whatever gaps between them, get reports that differ in places only; and any
source can be written with single blanks between its tokens. -/
namespace Crafter

/-- The class of the token and the characters that it takes in the source. -/
def Token.appearance (t : Token) : String × String := (t.lexeme.category, t.span.text)

/-- What a message says, and of what sort it is, wherever it stands. -/
def Diagnostic.gist (d : Diagnostic) : String × Severity × Concern :=
  (d.message, d.severity, d.concern)

/-- The tree without its places: all of them are put at the first character. -/
def Program.unplaced (p : Program) : Program := translate (.moving fun _ => .first) p

/-- The reports say the same, of programs that are the same, places left aside. -/
structure Report.Alike (r r' : Report) : Prop where
  status : r'.status = r.status
  output : r'.output = r.output
  partialOutput : r'.partialOutput = r.partialOutput
  limitReached : r'.limitReached = r.limitReached
  diagnostics : r'.diagnostics.map (·.gist) = r.diagnostics.map (·.gist)
  warnings : r'.warnings.map (·.gist) = r.warnings.map (·.gist)
  trace : r'.trace.map (·.kind) = r.trace.map (·.kind)
  program : r'.program.map (·.unplaced) = r.program.map (·.unplaced)

namespace Source

/-- The characters of a token tell what it says. -/
theorem Spelt.lexeme_unique {chars : List Char} {lexeme lexeme' : Lexeme} (h : Spelt chars lexeme)
    (h' : Spelt chars lexeme') : lexeme' = lexeme := by
  obtain ⟨c, cs, hchars, _⟩ := solid_of_spelt h
  have hcons : chars ++ [] = c :: cs := by rw [List.append_nil, hchars]
  have hend : ∀ d ∈ ([] : List Char).head?, ¬ Extends chars d := nofun
  have hread := readPiece_of_spelt h hend hcons
  have hread' := readPiece_of_spelt h' hend hcons
  cases hread.symm.trans hread'
  rfl

theorem renders_of_appearance {file source source' : String} {tokens tokens' : List Token}
    (hscan : scan file source = .ok tokens) (hscan' : scan file source' = .ok tokens')
    (hsame : tokens.map (·.appearance) = tokens'.map (·.appearance)) :
    List.Forall₂ (Token.Renders .refl) tokens tokens' := by
  have hpairs : List.Forall₂ (fun t t' : Token => t.appearance = t'.appearance) tokens tokens' := by
    rw [← List.forall₂_eq_eq_eq, List.forall₂_map_left_iff, List.forall₂_map_right_iff] at hsame
    exact hsame
  refine renders_of_scan hscan hscan' hpairs fun t _ t' hspelt hspelt' happearance => ?_
  have htext : t.span.text = t'.span.text := congrArg Prod.snd happearance
  unfold Token.WellSpelt at hspelt hspelt'
  rw [← htext] at hspelt'
  constructor
  · rw [Lexeme.rename_refl, hspelt.lexeme_unique hspelt']
  · rw [Renaming.text_refl, ite_self, htext]

end Source

/-! A translation that keeps all names changes nothing but places. -/

section

variable {τ : Translation}

theorem Program.unplaced_translate (hnames : τ.names = .refl) (hfile : τ.file = id)
    (p : Program) : unplaced (translate τ p) = unplaced p := by
  have hmoved : τ.moved (fun _ => .first) = .moving fun _ => .first := by
    unfold Translation.moved
    rw [hnames, hfile]
    rfl
  exact (translate_moved _ p).trans (congrArg (translate · p) hmoved)

theorem Diagnostic.gist_of_mirrors (hnames : τ.names = .refl) {d d' : Diagnostic}
    (h : d.Mirrors τ d') : d'.gist = d.gist := by
  cases h with
  | fault cause loc => rw [Fault.rename_refl hnames]; rfl
  | notice => rfl

theorem Lint.gist_translate (hnames : τ.names = .refl) (f : Finding) :
    (f.translate τ).diagnostic.gist = f.diagnostic.gist := by
  unfold Finding.translate
  rw [hnames, Lexeme.rename_refl]
  rfl

theorem Report.alike_of_mirrors (hnames : τ.names = .refl) (hfile : τ.file = id) {found : List Lint.Finding}
    {r r' : Report} (h : r.Mirrors τ found r') : r.Alike r' where
  status := h.status
  output := h.output
  partialOutput := h.partialOutput
  limitReached := h.limitReached
  diagnostics := h.map_diagnostics fun _ _ hd => Diagnostic.gist_of_mirrors hnames hd
  warnings := by
    rw [h.warnings, h.translated, List.map_map, List.map_map]
    exact List.map_congr_left fun f _ => Lint.gist_translate hnames f
  trace := by
    rw [h.trace, List.map_map]
    rfl
  program := by
    rw [h.program, Option.map_map]
    congr 1
    funext p
    exact Program.unplaced_translate hnames hfile p

end

theorem Report.alike_ofSyntaxError {e e' : SyntaxError} (h : e'.fault = e.fault)
    (tokens tokens' : List Token) (reached : Stage) :
    (Report.ofSyntaxError e tokens reached).Alike (.ofSyntaxError e' tokens' reached) := by
  have hgist : e'.diagnostic.gist = e.diagnostic.gist := by
    unfold Diagnostic.gist SyntaxError.diagnostic
    rw [h]
  exact ⟨rfl, rfl, rfl, rfl, congrArg (fun gist => [gist]) hgist, rfl, rfl, rfl⟩

theorem Translation.respects_empty (τ : Translation) : τ.Respects .empty :=
  fun _ => iff_of_false List.not_mem_nil List.not_mem_nil

namespace Request

/-- Both requests are answered, and the answers are alike. -/
def AnsweredAlike (file source source' : String) (cap : Int) : Prop :=
  ∃ r r', report ⟨source, file, .empty, cap⟩ = .ok r ∧
    report ⟨source', file, .empty, cap⟩ = .ok r' ∧ r.Alike r'

theorem answeredAlike_of_appearance {file source source' : String} {tokens tokens' : List Token}
    (hscan : Source.scan file source = .ok tokens)
    (hscan' : Source.scan file source' = .ok tokens')
    (hsame : tokens.map (·.appearance) = tokens'.map (·.appearance)) {cap : Int}
    (hcap : 1 ≤ cap) : AnsweredAlike file source source' cap := by
  have hrenders := Source.renders_of_appearance hscan hscan' hsame
  obtain ⟨τ, hnames, hfile, rfl, _⟩ :=
    Translation.exists_of_renders hrenders (Source.nodup_starts_of_scan hscan)
  have hcarries := Program.ofBalancedTokens_carries τ tokens
  cases hparse : Program.ofBalancedTokens tokens with
  | ok p =>
    obtain ⟨_, _, r, r', _, _, _, hr, hr', hmirrors⟩ := report_mirrors hscan hscan'
      ((Program.ofBalancedTokens_eq_ok_iff tokens p).mp hparse) τ.respects_empty hcap
    exact ⟨r, r', hr, hr', Report.alike_of_mirrors hnames hfile hmirrors⟩
  | error e =>
    rw [hparse] at hcarries
    cases hparse' : Program.ofBalancedTokens (tokens.map (Token.translate τ)) with
    | ok p => rw [hparse'] at hcarries; cases hcarries
    | error e' =>
      rw [hparse'] at hcarries
      cases hcarries with
      | error hfollows =>
        have hfault := hfollows.fault
        rw [hnames] at hfault
        exact ⟨_, _, report_of_error hscan hparse _ _, report_of_error hscan' hparse' _ _,
          Report.alike_ofSyntaxError (SyntaxFault.eq_of_follows_refl hfault) _ _ _⟩

end Request

namespace Source

/-- A gap ends every token. -/
theorem not_extends_of_gap {chars : List Char} {c : Char} (h : c ∈ gapCharacters) :
    ¬ Extends chars c := by
  have hgap : isGap c = true := (isGap_iff c).mpr h
  intro hextends
  cases hextends with
  | letter _ next => rw [not_isGap_of_isAlpha next] at hgap; cases hgap
  | digit _ next => rw [not_isGap_of_isDigit next] at hgap; cases hgap
  | equals => cases hgap

/-- Tiles with gaps between them are as long as they can be. -/
theorem longest_of_gaps {tiles : List Tile} (h : ∀ tile ∈ tiles.tail, tile.gap ≠ []) :
    Longest tiles [] := by
  induction tiles with
  | nil => trivial
  | cons tile tiles ih =>
    refine ⟨?_, ih fun other hother => h other (List.mem_of_mem_tail hother)⟩
    intro c hc
    cases tiles with
    | nil => cases hc
    | cons next tiles =>
      have hgap : next.gap ≠ [] := h next List.mem_cons_self
      obtain ⟨d, ds, hds⟩ := List.exists_cons_of_ne_nil hgap
      rw [layOut, hds, List.cons_append, List.head?_cons, Option.mem_some_iff] at hc
      subst hc
      exact not_extends_of_gap (next.blank d (hds ▸ List.mem_cons_self))

/-- The tile without a gap before it. -/
def Tile.flush (tile : Tile) : Tile := { tile with gap := [], blank := nofun }

/-- The tile with a single blank before it. -/
def Tile.spaced (tile : Tile) : Tile where
  gap := [' ']
  chars := tile.chars
  lexeme := tile.lexeme
  blank := List.forall_mem_singleton.mpr (by decide)
  spelt := tile.spelt

/-- The tiles with single blanks between them. -/
def spread : List Tile → List Tile
  | [] => []
  | tile :: tiles => tile.flush :: tiles.map Tile.spaced

theorem layOut_spread (tiles : List Tile) : layOut (spread tiles) [] =
    (" ".intercalate (tiles.map fun tile => String.ofList tile.chars)).toList := by
  cases tiles with
  | nil => rfl
  | cons tile tiles =>
    induction tiles generalizing tile with
    | nil =>
      rw [List.map_singleton, String.intercalate_singleton, String.toList_ofList]
      exact List.append_nil _
    | cons next tiles ih =>
      have hrest := ih next
      rw [List.map_cons] at hrest
      rw [List.map_cons, List.map_cons, Lint.toList_intercalate_blank, String.toList_ofList,
        ← hrest]
      rfl

theorem longest_spread (tiles : List Tile) : Longest (spread tiles) [] := by
  apply longest_of_gaps
  cases tiles with
  | nil => exact fun other hother => absurd hother List.not_mem_nil
  | cons tile tiles =>
    intro other hother
    obtain ⟨next, _, rfl⟩ := List.mem_map.mp hother
    exact List.cons_ne_nil _ _

theorem map_spread {α : Type} (f : Lexeme → List Char → α) (tiles : List Tile) :
    (spread tiles).map (fun tile => f tile.lexeme tile.chars) =
      tiles.map fun tile => f tile.lexeme tile.chars := by
  cases tiles with
  | nil => rfl
  | cons tile tiles =>
    rw [spread, List.map_cons, List.map_cons, List.map_map]
    rfl

/-- The text of the tokens, with single blanks between them. -/
def spacedText (tokens : List Token) : String := " ".intercalate (tokens.map (·.span.text))

/-- Tokens with single blanks between them are read as they are. -/
theorem scan_spacedText {file source : String} {tokens : List Token}
    (h : scan file source = .ok tokens) :
    ∃ tokens', scan file (spacedText tokens) = .ok tokens' ∧
      tokens'.map (fun t => (t.lexeme, t.span.text)) =
        tokens.map fun t => (t.lexeme, t.span.text) := by
  obtain ⟨t, rfl⟩ := exists_tiling_of_scan file h
  have htexts : (t.tokens file).map (·.span.text) =
      t.tiles.map fun tile => String.ofList tile.chars :=
    map_tokensAfter (fun _ text => text) file [] t.tiles
  have hcovers : layOut (spread t.tiles) ([] ++ []) = (spacedText (t.tokens file)).toList := by
    rw [List.append_nil, layOut_spread, spacedText, htexts]
  let u : Tiling (spacedText (t.tokens file)).toList :=
    ⟨spread t.tiles, [], [], none, nofun, hcovers, longest_spread t.tiles, .complete⟩
  have hscan : scan file (spacedText (t.tokens file)) = .ok (u.tokens file) :=
    scan_complete file rfl
  refine ⟨u.tokens file, hscan, ?_⟩
  calc (u.tokens file).map (fun t => (t.lexeme, t.span.text))
    _ = (spread t.tiles).map fun tile => (tile.lexeme, String.ofList tile.chars) :=
      map_tokensAfter Prod.mk file [] (spread t.tiles)
    _ = t.tiles.map fun tile => (tile.lexeme, String.ofList tile.chars) :=
      map_spread (fun lexeme chars => (lexeme, String.ofList chars)) t.tiles
    _ = (t.tokens file).map fun t => (t.lexeme, t.span.text) :=
      (map_tokensAfter Prod.mk file [] t.tiles).symm

end Source

namespace Request

/-- Two sources with tokens of the same classes and texts are answered alike, and
one of them is the text of the tokens with single blanks between them. -/
theorem report_layout {file source : String} {tokens : List Token}
    (hscan : Source.scan file source = .ok tokens) :
    (∀ source' tokens', Source.scan file source' = .ok tokens' →
      tokens.map (·.appearance) = tokens'.map (·.appearance) →
      ∀ cap, 1 ≤ cap → AnsweredAlike file source source' cap) ∧
    ∃ tokens', Source.scan file (Source.spacedText tokens) = .ok tokens' ∧
      tokens'.map (fun t => (t.lexeme, t.span.text)) =
        tokens.map (fun t => (t.lexeme, t.span.text)) ∧
      ∀ cap, 1 ≤ cap → AnsweredAlike file source (Source.spacedText tokens) cap := by
  obtain ⟨tokens', hscan', hsame⟩ := Source.scan_spacedText hscan
  have happearance : tokens.map (·.appearance) = tokens'.map (·.appearance) := by
    have hclasses := congrArg (List.map fun said => (said.1.category, said.2)) hsame
    rw [List.map_map, List.map_map] at hclasses
    exact hclasses.symm
  refine ⟨?_, tokens', hscan', hsame, ?_⟩
  · intro source' tokens' hscan' hsame cap hcap
    exact answeredAlike_of_appearance hscan hscan' hsame hcap
  · intro cap hcap
    exact answeredAlike_of_appearance hscan hscan' happearance hcap

end Request

namespace Sample

/-- The program with one warning of each kind, on one line and with few blanks. -/
def crampedSource : String :=
  "maano a=1 maano i=0 jabtak i<2\x7blikho i\x7dlikho x+1"

def crampedTokens : List Token :=
  match Source.scan Source.unnamed crampedSource with
  | .ok tokens => tokens
  | .error _ => []

theorem scan_cramped : Source.scan Source.unnamed crampedSource = .ok crampedTokens := by
  decide +kernel

end Sample

theorem Request.report_layout_sample :
    Sample.warnedTokens.map (·.appearance) = Sample.crampedTokens.map (·.appearance) ∧
    AnsweredAlike Source.unnamed Sample.warnedSource Sample.crampedSource 2 ∧
    AnsweredAlike Source.unnamed Sample.brokenSource (Source.spacedText Sample.brokenTokens) 2 := by
  have hsame : Sample.warnedTokens.map (·.appearance) =
      Sample.crampedTokens.map (·.appearance) := by decide +kernel
  obtain ⟨halike, _⟩ := report_layout Sample.scan_warned
  obtain ⟨_, _, _, _, hspaced⟩ := report_layout Sample.scan_broken
  exact ⟨hsame, halike _ _ Sample.scan_cramped hsame 2 (by decide), hspaced 2 (by decide)⟩

end Crafter
