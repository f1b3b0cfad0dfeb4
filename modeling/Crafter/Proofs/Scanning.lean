import Crafter.Proofs.Tiling

/-! A scan gives exactly the tokens that a text consists of, or tells where and
why the text does not consist of tokens. -/
namespace Crafter.Source

theorem start_mem_tokensAfter {file : String} {before : List Char} {tiles : List Tile} {t : Token}
    (h : t ∈ tokensAfter file before tiles) :
    ∃ cs, t.span.start = .after (before ++ cs) := by
  induction tiles generalizing before with
  | nil => cases h
  | cons tile tiles ih =>
    rcases List.mem_cons.mp h with rfl | h
    · exact ⟨tile.gap, rfl⟩
    · obtain ⟨cs, hcs⟩ := ih h
      exact ⟨tile.gap ++ (tile.chars ++ cs), by rw [hcs]; simp only [List.append_assoc]⟩

/-- Each token starts later in the text than those before it. -/
theorem pairwise_tokensAfter (file : String) (before : List Char) (tiles : List Tile) :
    (tokensAfter file before tiles).Pairwise fun a b => a.span.start.Before b.span.start := by
  induction tiles generalizing before with
  | nil => exact .nil
  | cons tile tiles ih =>
    refine List.pairwise_cons.mpr ⟨?_, ih (before ++ tile.gap ++ tile.chars)⟩
    intro t ht
    obtain ⟨cs, hcs⟩ := start_mem_tokensAfter ht
    obtain ⟨c, ds, hchars, _⟩ := solid_of_spelt tile.spelt
    have hne : tile.chars ++ cs ≠ [] := by
      rw [hchars]
      exact List.cons_ne_nil _ _
    rw [hcs, List.append_assoc]
    exact Position.after_before_after (before ++ tile.gap) hne

theorem wellSpelt_tokensAfter (file : String) (before : List Char) (tiles : List Tile) :
    ∀ t ∈ tokensAfter file before tiles, t.WellSpelt := by
  induction tiles generalizing before with
  | nil => exact nofun
  | cons tile tiles ih =>
    intro t ht
    rcases List.mem_cons.mp ht with rfl | ht
    · have hspelt : Spelt (String.ofList tile.chars).toList tile.lexeme := by
        rw [String.toList_ofList]
        exact tile.spelt
      exact hspelt
    · exact ih (before ++ tile.gap ++ tile.chars) t ht

/-- The tokens say what the tiles say. -/
theorem map_tokensAfter {α : Type} (f : Lexeme → String → α) (file : String) (before : List Char)
    (tiles : List Tile) :
    (tokensAfter file before tiles).map (fun t => f t.lexeme t.span.text) =
      tiles.map fun tile => f tile.lexeme (String.ofList tile.chars) := by
  induction tiles generalizing before with
  | nil => rfl
  | cons tile tiles ih =>
    rw [tokensAfter, List.map_cons, List.map_cons, ih]
    rfl

theorem file_of_mem_tokensAfter {file : String} {before : List Char} {tiles : List Tile} {t : Token}
    (h : t ∈ tokensAfter file before tiles) : t.span.file = file := by
  induction tiles generalizing before with
  | nil => cases h
  | cons tile tiles ih =>
    rcases List.mem_cons.mp h with rfl | h
    · rfl
    · exact ih h

variable (file : String) {source : String}

theorem scan_complete {t : Tiling source.toList} (h : t.obstacle = none) :
    scan file source = .ok (t.tokens file) := by
  unfold scan
  rw [Tiling.scanFrom_complete file h]

theorem scan_openString {t : Tiling source.toList} (h : t.obstacle = some .openString) :
    scan file source =
      .error (.malformed ((SyntaxError.atPosition .openString t.place).within source)) := by
  obtain ⟨c, _, hscan⟩ := Tiling.scanFrom_obstructed file h
  unfold scan
  rw [hscan]
  rfl

theorem scan_strayCharacter {t : Tiling source.toList} (h : t.obstacle = some .strayCharacter)
    {c : Char} (hc : t.rest.head? = some c) : scan file source =
      .error (.malformed ((SyntaxError.atPosition (.strayCharacter c) t.place).within source)) := by
  obtain ⟨d, hd, hscan⟩ := Tiling.scanFrom_obstructed file h
  cases hc.symm.trans hd
  unfold scan
  rw [hscan]
  rfl

theorem scan_numberTooLong {t : Tiling source.toList} {digits : Nat}
    (h : t.obstacle = some (.numberTooLong digits)) :
    scan file source = .error (.numberTooLong digits) := by
  obtain ⟨c, _, hscan⟩ := Tiling.scanFrom_obstructed file h
  unfold scan
  rw [hscan]
  rfl

variable (source)

/-- The four ways in which a scan ends, by what stops the tiling of the text. -/
theorem scan_cases : ∃ t : Tiling source.toList,
    (t.obstacle = none ∧ scan file source = .ok (t.tokens file)) ∨
    (t.obstacle = some .openString ∧ scan file source =
      .error (.malformed ((SyntaxError.atPosition .openString t.place).within source))) ∨
    (∃ c, t.obstacle = some .strayCharacter ∧ t.rest.head? = some c ∧ scan file source =
      .error (.malformed ((SyntaxError.atPosition (.strayCharacter c) t.place).within source))) ∨
    ∃ digits, t.obstacle = some (.numberTooLong digits) ∧
      scan file source = .error (.numberTooLong digits) := by
  obtain ⟨t⟩ := exists_tiling source.toList
  refine ⟨t, ?_⟩
  cases h : t.obstacle with
  | none => exact Or.inl ⟨rfl, scan_complete file h⟩
  | some obstacle =>
    cases obstacle with
    | openString => exact Or.inr (Or.inl ⟨rfl, scan_openString file h⟩)
    | strayCharacter =>
      obtain ⟨c, hc, _⟩ := Tiling.scanFrom_obstructed file h
      exact Or.inr (Or.inr (Or.inl ⟨c, rfl, hc, scan_strayCharacter file h hc⟩))
    | numberTooLong digits =>
      exact Or.inr (Or.inr (Or.inr ⟨digits, rfl, scan_numberTooLong file h⟩))

variable {source}

theorem exists_complete_tiling {tokens : List Token} (h : scan file source = .ok tokens) :
    ∃ t : Tiling source.toList, t.obstacle = none ∧ tokens = t.tokens file := by
  obtain ⟨t, ht⟩ := scan_cases file source
  rw [h] at ht
  rcases ht with ⟨hnone, hok⟩ | ⟨_, hok⟩ | ⟨_, _, _, hok⟩ | ⟨_, _, hok⟩
  · exact ⟨t, hnone, Except.ok.inj hok⟩
  all_goals cases hok

theorem exists_tiling_of_scan {tokens : List Token} (h : scan file source = .ok tokens) :
    ∃ t : Tiling source.toList, tokens = t.tokens file := by
  obtain ⟨t, _, ht⟩ := exists_complete_tiling file h
  exact ⟨t, ht⟩

theorem file_of_scan {tokens : List Token} (h : scan file source = .ok tokens) :
    ∀ t ∈ tokens, t.span.file = file := by
  obtain ⟨t, rfl⟩ := exists_tiling_of_scan file h
  exact fun t ht => file_of_mem_tokensAfter ht

/-- No two tokens of a source start at the same place. -/
theorem pairwise_of_scan {tokens : List Token} (h : scan file source = .ok tokens) :
    tokens.Pairwise fun a b => a.span.start.Before b.span.start := by
  obtain ⟨t, rfl⟩ := exists_tiling_of_scan file h
  exact pairwise_tokensAfter file [] t.tiles

theorem wellSpelt_of_scan {tokens : List Token} (h : scan file source = .ok tokens) :
    ∀ t ∈ tokens, t.WellSpelt := by
  obtain ⟨t, rfl⟩ := exists_tiling_of_scan file h
  exact wellSpelt_tokensAfter file [] t.tiles

theorem stray_message (c : Char) : (SyntaxFault.strayCharacter c).message.toList =
    "Unexpected character '".toList ++ [c, '\''] := by
  change ("Unexpected character '" ++ String.singleton c ++ "'").toList = _
  rw [String.toList_append, String.toList_append, String.toList_singleton, List.append_assoc]
  rfl

theorem stray_message_injective {c d : Char}
    (h : (SyntaxFault.strayCharacter c).message = (SyntaxFault.strayCharacter d).message) :
    c = d := by
  have hlist := congrArg String.toList h
  rw [stray_message, stray_message] at hlist
  exact (List.cons.inj (List.append_cancel_left hlist)).1

theorem stray_message_ne_open (c : Char) :
    (SyntaxFault.strayCharacter c).message ≠ "Unterminated string literal" := by
  intro h
  have hlist := congrArg (fun text : String => text.toList.take 3) h
  rw [stray_message, List.take_append_of_le_length (by decide)] at hlist
  exact absurd hlist (by decide)

/-- Every text has one tiling. A scan gives the tokens of a tiling that goes to
the end of the text, in ascending order of their places, and fails at the
obstacle of any other tiling. -/
theorem scan_iff_tiling (file source : String) :
    (∃ t : Tiling source.toList, ∀ u : Tiling source.toList, u = t) ∧
    (∀ tokens, scan file source = .ok tokens ↔
      ∃ t : Tiling source.toList, t.obstacle = none ∧ t.tokens file = tokens) ∧
    (∀ t : Tiling source.toList, (t.tokens file).Pairwise fun a b =>
      a.span.start.Before b.span.start) ∧
    (∀ place, (∃ e, scan file source = .error (.malformed e) ∧
        e.diagnostic = .pointing .error .syntactic "Unterminated string literal" place) ↔
      ∃ t : Tiling source.toList, t.obstacle = some .openString ∧ t.place = place) ∧
    (∀ c place, (∃ e, scan file source = .error (.malformed e) ∧
        e.diagnostic = .pointing .error .syntactic s!"Unexpected character '{c}'" place) ↔
      ∃ t : Tiling source.toList, t.obstacle = some .strayCharacter ∧ t.rest.head? = some c ∧
        t.place = place) ∧
    ∀ digits, scan file source = .error (.numberTooLong digits) ↔
      ∃ t : Tiling source.toList, t.obstacle = some (.numberTooLong digits) := by
  obtain ⟨t, ht⟩ := scan_cases file source
  refine ⟨⟨t, fun u => tiling_unique u t⟩, ?_, fun t => pairwise_tokensAfter file [] t.tiles,
    ?_, ?_, ?_⟩
  · intro tokens
    constructor
    · -- a scan ends in one way only, so that the other three drop out
      intro h
      rw [h] at ht
      rcases ht with ⟨hnone, hok⟩ | ⟨_, hok⟩ | ⟨_, _, _, hok⟩ | ⟨_, _, hok⟩
      · exact ⟨t, hnone, (Except.ok.inj hok).symm⟩
      all_goals cases hok
    · rintro ⟨u, hu, rfl⟩
      exact scan_complete file hu
  · intro place
    constructor
    · rintro ⟨e, he, hdiagnostic⟩
      rw [he] at ht
      rcases ht with ⟨_, hok⟩ | ⟨hopen, hok⟩ | ⟨c, _, _, hok⟩ | ⟨_, _, hok⟩
      · cases hok
      · cases hok
        exact ⟨t, hopen, congrArg Diagnostic.start hdiagnostic⟩
      · cases hok
        exact absurd (congrArg Diagnostic.message hdiagnostic) (stray_message_ne_open c)
      · cases hok
    · rintro ⟨u, hu, rfl⟩
      exact ⟨_, scan_openString file hu, rfl⟩
  · intro c place
    constructor
    · rintro ⟨e, he, hdiagnostic⟩
      rw [he] at ht
      rcases ht with ⟨_, hok⟩ | ⟨_, hok⟩ | ⟨d, hstray, hd, hok⟩ | ⟨_, _, hok⟩
      · cases hok
      · cases hok
        exact absurd (congrArg Diagnostic.message hdiagnostic).symm (stray_message_ne_open c)
      · cases hok
        cases stray_message_injective (congrArg Diagnostic.message hdiagnostic)
        exact ⟨t, hstray, hd, congrArg Diagnostic.start hdiagnostic⟩
      · cases hok
    · rintro ⟨u, hu, hc, rfl⟩
      exact ⟨_, scan_strayCharacter file hu hc, rfl⟩
  · intro digits
    constructor
    · intro h
      rw [h] at ht
      rcases ht with ⟨_, hok⟩ | ⟨_, hok⟩ | ⟨_, _, _, hok⟩ | ⟨_, hlong, hok⟩
      · cases hok
      · cases hok
      · cases hok
      · cases hok
        exact ⟨t, hlong⟩
    · rintro ⟨u, hu⟩
      exact scan_numberTooLong file hu

/-- The tokens of a source; none if they cannot all be read. -/
def tokensD (file source : String) : List Token :=
  match scan file source with
  | .ok tokens => tokens
  | .error _ => []

theorem scan_eq_of_isOk {file source : String} (h : (scan file source).isOk = true) :
    scan file source = .ok (tokensD file source) := by
  unfold tokensD
  cases hscan : scan file source with
  | ok tokens => rfl
  | error failure =>
    rw [hscan] at h
    cases h

end Crafter.Source
