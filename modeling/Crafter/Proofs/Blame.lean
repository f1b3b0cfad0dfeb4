import Crafter.Proofs.Balance
import Crafter.Proofs.Earliest
import Crafter.Proofs.Underlined

/-! Every syntax error points at a character of its text: the first one of a
token, or the one at which no token starts. -/
namespace Crafter

open Source

namespace Source

theorem last_of_class {p : Char → Bool} (hp : p '\n' = false) {chars : List Char}
    (nonempty : chars ≠ []) (h : ∀ c ∈ chars, p c = true) :
    ∃ init c, chars = init ++ [c] ∧ c ≠ '\n' := by
  obtain rfl | ⟨init, c, rfl⟩ := chars.eq_nil_or_concat
  · exact absurd rfl nonempty
  · rw [List.concat_eq_append] at h ⊢
    exact ⟨init, c, rfl, ne_of_class (h c (by simp)) hp⟩

theorem not_feed_of_mem {c : Char} (h : c ∈ operatorCharacters) : c ≠ '\n' := by
  rintro rfl
  exact absurd h (by decide)

/-- No token ends in a line feed. -/
theorem last_of_spelt {chars : List Char} {lexeme : Lexeme} (h : Spelt chars lexeme) :
    ∃ init c, chars = init ++ [c] ∧ c ≠ '\n' := by
  cases h with
  | string body => exact ⟨'"' :: body, '"', rfl, by decide⟩
  | keyword _ nonempty alpha | identifier _ nonempty alpha =>
    exact last_of_class (by decide) nonempty alpha
  | number _ nonempty digit => exact last_of_class (by decide) nonempty digit
  | operator c start => exact ⟨[], c, rfl, not_feed_of_mem start⟩
  | compound c => exact ⟨[c], '=', rfl, by decide⟩
  | opening => exact ⟨[], '\x7b', rfl, by decide⟩
  | closing => exact ⟨[], '\x7d', rfl, by decide⟩

theorem not_feed_of_solid {c : Char} (h : isGap c = false) : c ≠ '\n' := by
  rintro rfl
  exact absurd h (by decide)

/-- A token takes a stretch of the text, and its places are those of the first and
the last character of the stretch. -/
theorem exists_stretch {file : String} {before : List Char} {tiles : List Tile}
    {t : Token} (h : t ∈ tokensAfter file before tiles) (tail : List Char) :
    ∃ front chars back, before ++ layOut tiles tail = front ++ (chars ++ back) ∧
      Spelt chars t.lexeme ∧ t.span.text = String.ofList chars ∧ t.span.start = .after front ∧
      t.span.stop = .after (front ++ chars.dropLast) := by
  induction tiles generalizing before with
  | nil => cases h
  | cons tile tiles ih =>
    rcases List.mem_cons.mp h with rfl | h
    · refine ⟨before ++ tile.gap, tile.chars, layOut tiles tail, ?_, tile.spelt, rfl, rfl, rfl⟩
      rw [layOut, List.append_assoc]
    · obtain ⟨front, chars, back, hlay, hrest⟩ := ih h
      refine ⟨front, chars, back, ?_, hrest⟩
      rw [← hlay, layOut]
      simp only [List.append_assoc]

/-- The first and the last character of a token stand in the source where its span
says. -/
theorem stands_of_scan {file source : String} {tokens : List Token}
    (hscan : scan file source = .ok tokens) {t : Token} (ht : t ∈ tokens) :
    ∃ first last, t.span.text.toList.head? = some first ∧ first ≠ '\n' ∧ last ≠ '\n' ∧
      Stands source first t.span.start ∧ Stands source last t.span.stop ∧
      (t.span.start = t.span.stop ∨ t.span.start.Before t.span.stop) := by
  obtain ⟨tiling, rfl⟩ := exists_tiling_of_scan file hscan
  obtain ⟨front, chars, back, hlay, hspelt, htext, hstart, hstop⟩ :=
    exists_stretch ht (tiling.gap ++ tiling.rest)
  rw [List.nil_append, tiling.covers] at hlay
  obtain ⟨c, cs, hc, hsolid⟩ := solid_of_spelt hspelt
  obtain ⟨init, d, hd, hne⟩ := last_of_spelt hspelt
  refine ⟨c, d, ?_, not_feed_of_solid hsolid, hne, ?_, ?_, ?_⟩
  · rw [htext, String.toList_ofList, hc]
    rfl
  · refine ⟨front, cs ++ back, ?_, hstart⟩
    rw [hlay, hc, List.cons_append]
  · refine ⟨front ++ init, back, ?_, ?_⟩
    · rw [hlay, hd]
      simp only [List.append_assoc, List.singleton_append]
    · rw [hstop, hd, List.dropLast_concat]
  · rw [hstart, hstop, hd, List.dropLast_concat]
    cases init with
    | nil =>
      left
      rw [List.append_nil]
    | cons e init => exact Or.inr (Position.after_before_after front (List.cons_ne_nil e init))

end Source

/-- The error blames one of the tokens. -/
def SyntaxError.Blames (tokens : List Token) (e : SyntaxError) : Prop :=
  ∃ t ∈ tokens, e = .atToken e.fault t

namespace Source

theorem mem_of_balance {ts opened opened' : List Token}
    (h : ts.foldlM balanceStep opened = .ok opened') : ∀ t ∈ opened', t ∈ opened ∨ t ∈ ts := by
  induction ts generalizing opened with
  | nil =>
    cases h
    exact fun t ht => Or.inl ht
  | cons t ts ih =>
    rw [List.foldlM_cons] at h
    cases hstep : balanceStep opened t with
    | error e =>
      rw [hstep] at h
      cases h
    | ok next =>
      rw [hstep] at h
      have hnext : ∀ u ∈ next, u ∈ opened ∨ u = t := by
        unfold balanceStep at hstep
        split at hstep
        · cases hstep
          exact fun u hu => (List.mem_cons.mp hu).symm
        · split at hstep
          · cases hstep
          · cases hstep
            exact fun u hu => Or.inl (List.mem_cons_of_mem _ hu)
        · cases hstep
          exact fun u hu => Or.inl hu
      intro u hu
      rcases ih h u hu with hu | hu
      · rcases hnext u hu with hu | rfl
        · exact Or.inl hu
        · exact Or.inr List.mem_cons_self
      · exact Or.inr (List.mem_cons_of_mem t hu)

theorem blames_of_balance_error {ts opened : List Token} {e : SyntaxError}
    (h : ts.foldlM balanceStep opened = .error e) : e.Blames ts := by
  induction ts generalizing opened with
  | nil => cases h
  | cons t ts ih =>
    rw [List.foldlM_cons] at h
    cases hstep : balanceStep opened t with
    | error e' =>
      rw [hstep] at h
      cases h
      unfold balanceStep at hstep
      split at hstep
      · cases hstep
      · split at hstep
        · cases hstep
          exact ⟨t, List.mem_cons_self, rfl⟩
        · cases hstep
      · cases hstep
    | ok next =>
      rw [hstep] at h
      obtain ⟨u, hu, he⟩ := ih h
      exact ⟨u, List.mem_cons_of_mem t hu, he⟩

theorem blames_of_checkBalance {tokens : List Token} {e : SyntaxError}
    (h : checkBalance tokens = .error e) : e.Blames tokens := by
  unfold checkBalance at h
  cases hfold : tokens.foldlM balanceStep [] with
  | error e' =>
    rw [hfold] at h
    cases h
    exact blames_of_balance_error hfold
  | ok opened =>
    rw [hfold] at h
    cases opened with
    | nil => cases h
    | cons opener outer =>
      cases h
      have hopener := mem_of_balance hfold opener List.mem_cons_self
      exact ⟨opener, hopener.resolve_left List.not_mem_nil, rfl⟩

end Source

namespace Reading

/-- The token read last is the last one, unless none was read. -/
theorem last_of_run {r q : Reading} {ts : List Token} (h : r.run ts = .ok q) :
    (ts = [] ∧ q = r) ∨ ∃ t ∈ ts, q.last = some t := by
  induction ts generalizing r with
  | nil =>
    cases h
    exact Or.inl ⟨rfl, rfl⟩
  | cons t ts ih =>
    obtain ⟨r', hstep, hrun⟩ := run_cons_eq_ok h
    obtain ⟨_, q', _, _, rfl⟩ := step_cases hstep
    right
    rcases ih hrun with ⟨_, rfl⟩ | ⟨u, hu, hlast⟩
    · exact ⟨t, List.mem_cons_self, rfl⟩
    · exact ⟨u, List.mem_cons_of_mem t hu, hlast⟩

theorem blames_of_awaits {ts : List Token} {e : SyntaxError}
    (h : Program.AwaitsExpression ts e) : e.Blames ts := by
  cases h with
  | declaration us => exact ⟨_, List.mem_append_right us List.mem_cons_self, rfl⟩
  | print us => exact ⟨_, List.mem_append_right us List.mem_cons_self, rfl⟩

theorem blames_of_finish {tokens : List Token} {q : Reading} {e : SyntaxError}
    (hrun : start.run tokens = .ok q) (h : q.finish = .error e) : e.Blames tokens := by
  rcases finish_error h with ⟨wanted, rfl⟩ | hlacks | ⟨block, outer, hblocks, rfl⟩
  · rcases last_of_run hrun with ⟨_, rfl⟩ | ⟨t, ht, hlast⟩
    · cases h
    · rw [hlast]
      exact ⟨t, ht, rfl⟩
  · exact blames_of_awaits (awaitsExpression_of_lacks (covers_run covers_start hrun) hlacks)
  · have hopener : block.opener ∈ q.openers := by
      rw [openers, hblocks]
      exact List.mem_cons_self
    have hmem := Source.mem_of_balance (balance_of_run hrun) block.opener hopener
    exact ⟨block.opener, hmem.resolve_left List.not_mem_nil, rfl⟩

end Reading

namespace Program

open Reading

theorem ofTokens_blames {tokens : List Token} {e : SyntaxError} (h : ofTokens tokens = .error e) :
    e.Blames tokens := by
  change (start.run tokens >>= finish) = _ at h
  cases hrun : start.run tokens with
  | error e' =>
    rw [hrun] at h
    cases h
    obtain ⟨us, t, vs, q, rfl, hus, hstep⟩ := run_error hrun
    rcases step_error hstep with ⟨_, hlacks⟩ | ⟨q', _, hrejects⟩
    · have hawaits := awaitsExpression_of_lacks (covers_run covers_start hus) hlacks
      obtain ⟨u, hu, he⟩ := blames_of_awaits hawaits
      exact ⟨u, List.mem_append_left _ hu, he⟩
    · have ht : t ∈ us ++ t :: vs := List.mem_append_right us List.mem_cons_self
      cases hrejects <;> exact ⟨t, ht, rfl⟩
  | ok q =>
    rw [hrun] at h
    exact blames_of_finish hrun h

theorem ofBalancedTokens_blames {tokens : List Token} {e : SyntaxError}
    (h : ofBalancedTokens tokens = .error e) : e.Blames tokens := by
  unfold ofBalancedTokens at h
  cases hbalance : checkBalance tokens with
  | error e' =>
    rw [hbalance] at h
    cases h
    exact blames_of_checkBalance hbalance
  | ok _ =>
    rw [hbalance] at h
    exact ofTokens_blames h

end Program

/-- The error points at a character of the source: the one at which no token
starts, or the first one of a token. The source lines around it are known, and
what is underlined there lies in the line of the error. -/
structure SyntaxError.Placed (file source : String) (e : SyntaxError) : Prop where
  character : ∃ c, Stands source c e.start ∧
    ((∃ t : Tiling source.toList, t.obstacle.isSome = true ∧ t.rest.head? = some c ∧
        t.place = e.start) ∨
      ∃ tokens, scan file source = .ok tokens ∧ ∃ t ∈ tokens, t.span.start = e.start ∧
        t.span.text.toList.head? = some c)
  excerpt : ∃ shown, e.excerpt = some shown ∧ shown ≠ "" ∧ e.diagnostic.Underlines source shown

namespace SyntaxError

theorem placed_of_blames {file source : String} {tokens : List Token} {e : SyntaxError}
    (hscan : scan file source = .ok tokens) (h : e.Blames tokens) :
    (e.within source).Placed file source := by
  obtain ⟨t, ht, he⟩ := h
  obtain ⟨first, last, hhead, hne, hne', hfirst, hlast, horder⟩ := stands_of_scan hscan ht
  generalize hfault : e.fault = fault at he
  subst he
  refine ⟨⟨first, hfirst, Or.inr ⟨tokens, hscan, t, ht, rfl, hhead⟩⟩, ?_⟩
  have hcolumn : (atToken fault t).diagnostic.lastColumn =
      if t.span.stop.line = t.span.start.line then t.span.stop.column
        else t.span.start.column := by
    unfold Diagnostic.lastColumn atToken diagnostic
    simp only [Option.map_some, Option.some.injEq, Option.getD_some]
  have hexcerpt : ∃ shown, (atToken fault t).diagnostic.excerpt source = some shown ∧
      shown ≠ "" ∧ (atToken fault t).diagnostic.Underlines source shown := by
    by_cases hline : t.span.stop.line = t.span.start.line
    · rw [if_pos hline] at hcolumn
      have hplace : (⟨t.span.start.line, t.span.stop.column⟩ : Position) = t.span.stop := by
        rw [← hline]
      have hle : t.span.start.column ≤ t.span.stop.column := by
        rcases horder with heq | hbefore
        · rw [heq]
        · unfold Position.Before at hbefore
          omega
      rw [← hplace] at hlast
      rw [← hcolumn] at hlast hle
      exact Diagnostic.exists_excerpt hfirst hne hlast hne' hle nofun
    · rw [if_neg hline] at hcolumn
      have hle : t.span.start.column ≤ (atToken fault t).diagnostic.lastColumn := by rw [hcolumn]
      refine Diagnostic.exists_excerpt hfirst hne ?_ hne hle nofun
      rw [hcolumn]
      exact hfirst
  exact hexcerpt

theorem placed_at_obstacle (file : String) {source : String} {t : Tiling source.toList}
    {obstacle : Obstacle} (hobstacle : t.obstacle = some obstacle) (fault : SyntaxFault) :
    ((atPosition fault t.place).within source).Placed file source := by
  have hobstructs : Obstructs t.rest obstacle := Stops.obstructs (hobstacle ▸ t.stops)
  obtain ⟨c, cs, hrest, hsolid, _⟩ := readPiece_of_obstructs hobstructs
  have hne : c ≠ '\n' := not_feed_of_solid hsolid
  have hstands : Stands source c t.place := by
    refine ⟨layOut t.tiles t.gap, cs, ?_, rfl⟩
    rw [← hrest, ← layOut_append]
    exact t.covers.symm
  refine ⟨⟨c, hstands, Or.inl ⟨t, ?_, ?_, rfl⟩⟩, ?_⟩
  · rw [hobstacle]
    rfl
  · rw [hrest]
    rfl
  · -- one column is underlined, and the character stands there
    exact Diagnostic.exists_excerpt hstands hne hstands hne (Int.le_refl _) fun _ => rfl

theorem placed_of_scan_error {file source : String} {e : SyntaxError}
    (h : scan file source = .error (.malformed e)) : e.Placed file source := by
  obtain ⟨t, ht⟩ := scan_cases file source
  rw [h] at ht
  rcases ht with ⟨_, herror⟩ | ⟨hopen, herror⟩ | ⟨c, hstray, _, herror⟩ | ⟨_, _, herror⟩
  · cases herror
  · cases herror
    exact placed_at_obstacle file hopen .openString
  · cases herror
    exact placed_at_obstacle file hstray (.strayCharacter c)
  · cases herror

end SyntaxError

end Crafter
