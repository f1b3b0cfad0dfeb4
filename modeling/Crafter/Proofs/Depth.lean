import Crafter.Proofs.Balance

/-! The check of the braces by counting. The braces that the check keeps are those
that have no partner yet, and how many there are is how many more braces have been
opened than closed; so the check passes exactly what is balanced, and it blames the
brace at which the counts go wrong. -/
namespace Crafter

/-- The side of a brace; no other token has one. -/
def Lexeme.side? : Lexeme → Option Brace
  | .brace side => some side
  | _ => none

namespace Source

/-- The braces among the tokens. -/
def sides (tokens : List Token) : List Brace := tokens.filterMap (·.lexeme.side?)

/-- A sequence of braces in which each one has its partner. -/
inductive Balanced : List Brace → Prop where
  | empty : Balanced []
  | block {inner rest : List Brace} (hinner : Balanced inner) (hrest : Balanced rest) :
      Balanced (.opening :: (inner ++ .closing :: rest))

/-- How many more braces of the sequence are opening than closing. -/
def surplus (w : List Brace) : Int := w.count .opening - w.count .closing

/-- How many more braces the tokens open than they close. -/
def depth (tokens : List Token) : Int := surplus (sides tokens)

/-- From the opening brace `t` on, no more braces are closed than opened. -/
structure LeftOpen (before : List Token) (t : Token) (after : List Token) : Prop where
  opening : t.lexeme = .brace .opening
  kept : ∀ p, p <+: after → depth (before ++ [t]) ≤ depth (before ++ t :: p)

/-- The check fails with the message, and tells the place of the token. -/
def FailsAt (tokens : List Token) (t : Token) (message : String) : Prop :=
  ∃ e, checkBalance tokens = .error e ∧ e.diagnostic.message = message ∧
    e.start = t.span.start ∧ e.stop = some t.span.stop

theorem sides_append (us vs : List Token) : sides (us ++ vs) = sides us ++ sides vs :=
  List.filterMap_append

theorem sides_cons_brace {t : Token} {side : Brace} (h : t.lexeme = .brace side)
    (ts : List Token) : sides (t :: ts) = side :: sides ts := by
  apply List.filterMap_cons_some
  rw [h]
  rfl

theorem sides_cons_other {t : Token} (h : ∀ side, t.lexeme ≠ .brace side) (ts : List Token) :
    sides (t :: ts) = sides ts := by
  apply List.filterMap_cons_none
  cases hlexeme : t.lexeme with
  | brace side => exact absurd hlexeme (h side)
  | _ => rfl

theorem surplus_nil : surplus [] = 0 := rfl

theorem surplus_append (u v : List Brace) : surplus (u ++ v) = surplus u + surplus v := by
  unfold surplus
  rw [List.count_append, List.count_append]
  omega

theorem surplus_opening (w : List Brace) : surplus (.opening :: w) = surplus w + 1 := by
  unfold surplus
  rw [List.count_cons_self, List.count_cons_of_ne (by decide)]
  omega

theorem surplus_closing (w : List Brace) : surplus (.closing :: w) = surplus w - 1 := by
  unfold surplus
  rw [List.count_cons_self, List.count_cons_of_ne (by decide)]
  omega

theorem depth_nil : depth [] = 0 := rfl

theorem depth_append (us vs : List Token) : depth (us ++ vs) = depth us + depth vs := by
  unfold depth
  rw [sides_append, surplus_append]

theorem depth_cons (t : Token) (ts : List Token) : depth (t :: ts) = depth [t] + depth ts :=
  depth_append [t] ts

theorem depth_opening {t : Token} (h : t.lexeme = .brace .opening) : depth [t] = 1 := by
  unfold depth
  rw [sides_cons_brace h]
  rfl

theorem depth_closing {t : Token} (h : t.lexeme = .brace .closing) : depth [t] = -1 := by
  unfold depth
  rw [sides_cons_brace h]
  rfl

theorem depth_other {t : Token} (h : ∀ side, t.lexeme ≠ .brace side) : depth [t] = 0 := by
  unfold depth
  rw [sides_cons_other h]
  rfl

/-! Balanced sequences. -/

theorem prefix_append_cases {α : Type} {u v p : List α} (h : p <+: u ++ v) :
    p <+: u ∨ ∃ q, p = u ++ q ∧ q <+: v := by
  obtain ⟨r, hr⟩ := h
  rcases List.append_eq_append_iff.mp hr with ⟨q, hu, _⟩ | ⟨q, hp, hv⟩
  · exact Or.inl ⟨q, hu.symm⟩
  · exact Or.inr ⟨q, hp, r, hv.symm⟩

theorem Balanced.append {u v : List Brace} (hu : Balanced u) (hv : Balanced v) :
    Balanced (u ++ v) := by
  induction hu with
  | empty => exact hv
  | block hinner _ _ ih =>
    rw [List.cons_append, List.append_assoc, List.cons_append]
    exact .block hinner ih

theorem Balanced.enclose {w : List Brace} (h : Balanced w) :
    Balanced (.opening :: (w ++ [.closing])) :=
  .block h .empty

/-- Each brace has its partner, so that as many are opened as closed; and no prefix
closes a brace that it has not opened. -/
theorem Balanced.surplus {w : List Brace} (h : Balanced w) :
    Source.surplus w = 0 ∧ ∀ p, p <+: w → 0 ≤ Source.surplus p := by
  induction h with
  | empty =>
    refine ⟨rfl, ?_⟩
    intro p hp
    rw [List.prefix_nil.mp hp]
    exact Int.le_refl 0
  | @block inner rest _ _ ihinner ihrest =>
    obtain ⟨hinner, hinner_prefix⟩ := ihinner
    obtain ⟨hrest, hrest_prefix⟩ := ihrest
    constructor
    · rw [surplus_opening, surplus_append, surplus_closing]
      omega
    · intro p hp
      rcases List.prefix_cons_iff.mp hp with rfl | ⟨q, rfl, hq⟩
      · exact Int.le_refl 0
      rw [surplus_opening]
      rcases prefix_append_cases hq with hq | ⟨r, rfl, hr⟩
      · have hle := hinner_prefix q hq
        omega
      · rw [surplus_append]
        rcases List.prefix_cons_iff.mp hr with rfl | ⟨s, rfl, hs⟩
        · rw [surplus_nil]
          omega
        · have hle := hrest_prefix s hs
          rw [surplus_closing]
          omega

theorem depth_of_balanced {tokens : List Token} (h : Balanced (sides tokens)) :
    depth tokens = 0 :=
  h.surplus.1

theorem depth_prefix_of_balanced {tokens p : List Token} (h : Balanced (sides tokens))
    (hp : p <+: tokens) : 0 ≤ depth p :=
  h.surplus.2 (sides p) (hp.filterMap _)

/-! What the check keeps, token by token. -/

theorem balance_append_eq_ok {opened opened' us vs : List Token}
    (h : (us ++ vs).foldlM balanceStep opened = .ok opened') :
    ∃ middle, us.foldlM balanceStep opened = .ok middle ∧
      vs.foldlM balanceStep middle = .ok opened' := by
  rw [List.foldlM_append] at h
  cases hus : us.foldlM balanceStep opened with
  | error e =>
    rw [hus] at h
    cases h
  | ok middle =>
    rw [hus] at h
    exact ⟨middle, rfl, h⟩

theorem balance_cons_eq_ok {opened opened' ts : List Token} {t : Token}
    (h : (t :: ts).foldlM balanceStep opened = .ok opened') :
    ∃ middle, balanceStep opened t = .ok middle ∧ ts.foldlM balanceStep middle = .ok opened' := by
  rw [List.foldlM_cons] at h
  cases hstep : balanceStep opened t with
  | error e =>
    rw [hstep] at h
    cases h
  | ok middle =>
    rw [hstep] at h
    exact ⟨middle, rfl, h⟩

theorem balanceStep_cases {opened opened' : List Token} {t : Token}
    (h : balanceStep opened t = .ok opened') :
    (t.lexeme = .brace .opening ∧ opened' = t :: opened) ∨
    (t.lexeme = .brace .closing ∧ ∃ opener, opened = opener :: opened') ∨
    ((∀ side, t.lexeme ≠ .brace side) ∧ opened' = opened) := by
  by_cases hopening : t.lexeme = .brace .opening
  · rw [balanceStep_of_opening hopening] at h
    exact Or.inl ⟨hopening, (Except.ok.inj h).symm⟩
  by_cases hclosing : t.lexeme = .brace .closing
  · right; left
    cases opened with
    | nil =>
      rw [balanceStep_of_stray hclosing] at h
      cases h
    | cons opener rest =>
      rw [balanceStep_of_closing hclosing] at h
      cases h
      exact ⟨hclosing, opener, rfl⟩
  · have hother : ∀ side, t.lexeme ≠ .brace side := by
      intro side
      cases side with
      | opening => exact hopening
      | closing => exact hclosing
    rw [balanceStep_of_other hother] at h
    exact Or.inr (Or.inr ⟨hother, (Except.ok.inj h).symm⟩)

theorem length_of_balanceStep {opened opened' : List Token} {t : Token}
    (h : balanceStep opened t = .ok opened') :
    (opened'.length : Int) = opened.length + depth [t] := by
  rcases balanceStep_cases h with ⟨ht, rfl⟩ | ⟨ht, opener, rfl⟩ | ⟨ht, rfl⟩
  · rw [depth_opening ht, List.length_cons]
    omega
  · rw [depth_closing ht, List.length_cons]
    omega
  · rw [depth_other ht]
    omega

/-- The check keeps as many braces as the tokens have left open. -/
theorem length_of_balance {opened opened' ts : List Token}
    (h : ts.foldlM balanceStep opened = .ok opened') :
    (opened'.length : Int) = opened.length + depth ts := by
  induction ts generalizing opened with
  | nil =>
    cases h
    rw [depth_nil]
    omega
  | cons t ts ih =>
    obtain ⟨middle, hstep, hrest⟩ := balance_cons_eq_ok h
    have hlength := length_of_balanceStep hstep
    rw [ih hrest, depth_cons]
    omega

theorem depth_prefix_of_balance {opened ts p : List Token}
    (h : ts.foldlM balanceStep [] = .ok opened) (hp : p <+: ts) : 0 ≤ depth p := by
  obtain ⟨rest, rfl⟩ := hp
  obtain ⟨middle, hfront, _⟩ := balance_append_eq_ok h
  have hlength := length_of_balance hfront
  rw [List.length_nil] at hlength
  omega

theorem stray_of_balanceStep {opened : List Token} {t : Token} {e : SyntaxError}
    (h : balanceStep opened t = .error e) :
    opened = [] ∧ t.lexeme = .brace .closing ∧ e = .atToken .strayClosing t := by
  unfold balanceStep at h
  split at h
  · cases h
  · next ht =>
    split at h
    · cases h
      exact ⟨rfl, ht, rfl⟩
    · cases h
  · cases h

/-- The check fails at a closing brace when it keeps none. -/
theorem stray_of_balance {opened ts : List Token} {e : SyntaxError}
    (h : ts.foldlM balanceStep opened = .error e) :
    ∃ before t after, ts = before ++ t :: after ∧ before.foldlM balanceStep opened = .ok [] ∧
      t.lexeme = .brace .closing ∧ e = .atToken .strayClosing t := by
  induction ts generalizing opened with
  | nil => cases h
  | cons t ts ih =>
    rw [List.foldlM_cons] at h
    cases hstep : balanceStep opened t with
    | ok middle =>
      rw [hstep] at h
      obtain ⟨before, u, after, rfl, hbefore, hu, he⟩ := ih h
      refine ⟨t :: before, u, after, rfl, ?_, hu, he⟩
      rw [List.foldlM_cons, hstep]
      exact hbefore
    | error e' =>
      rw [hstep] at h
      cases h
      obtain ⟨rfl, hclosing, rfl⟩ := stray_of_balanceStep hstep
      exact ⟨[], t, ts, rfl, rfl, hclosing, rfl⟩

/-- The braces that are kept, the innermost first, stand in the tokens one before the
other, and what stands between them is balanced. -/
def Leaves : List Token → List Token → Prop
  | [], tokens => Balanced (sides tokens)
  | opener :: opened, tokens => ∃ before after, tokens = before ++ opener :: after ∧
      opener.lexeme = .brace .opening ∧ Leaves opened before ∧ Balanced (sides after)

theorem Leaves.append {opened us vs : List Token} (h : Leaves opened us)
    (hvs : Balanced (sides vs)) : Leaves opened (us ++ vs) := by
  cases opened with
  | nil =>
    unfold Leaves
    rw [sides_append]
    exact Balanced.append h hvs
  | cons opener opened =>
    obtain ⟨before, after, rfl, hopener, hbefore, hafter⟩ := h
    refine ⟨before, after ++ vs, by rw [List.append_assoc, List.cons_append], hopener, hbefore, ?_⟩
    rw [sides_append]
    exact hafter.append hvs

theorem Leaves.step {opened opened' us : List Token} {t : Token} (h : Leaves opened us)
    (hstep : balanceStep opened t = .ok opened') : Leaves opened' (us ++ [t]) := by
  rcases balanceStep_cases hstep with ⟨ht, rfl⟩ | ⟨ht, opener, rfl⟩ | ⟨ht, rfl⟩
  · exact ⟨us, [], rfl, ht, h, .empty⟩
  · -- the innermost brace and its partner enclose what is balanced
    obtain ⟨before, after, rfl, hopener, hbefore, hafter⟩ := h
    have hblock : Balanced (sides (opener :: (after ++ [t]))) := by
      rw [sides_cons_brace hopener, sides_append, sides_cons_brace ht]
      exact hafter.enclose
    rw [List.append_assoc, List.cons_append]
    exact hbefore.append hblock
  · apply h.append
    rw [sides_cons_other ht]
    exact .empty

theorem Leaves.run {opened opened' us ts : List Token} (h : Leaves opened us)
    (hrun : ts.foldlM balanceStep opened = .ok opened') : Leaves opened' (us ++ ts) := by
  induction ts generalizing opened us with
  | nil =>
    cases hrun
    rwa [List.append_nil]
  | cons t ts ih =>
    obtain ⟨middle, hstep, hrest⟩ := balance_cons_eq_ok hrun
    rw [List.append_cons]
    exact ih (h.step hstep) hrest

theorem leaves_of_balance {opened tokens : List Token}
    (h : tokens.foldlM balanceStep [] = .ok opened) : Leaves opened tokens := by
  have hnone : Leaves [] [] := Balanced.empty
  exact hnone.run h

/-! What the check finds. -/

/-- What is balanced leaves no brace behind, and stops the check nowhere. -/
theorem balance_of_balanced {tokens : List Token} (h : Balanced (sides tokens)) :
    tokens.foldlM balanceStep [] = .ok [] := by
  cases hrun : tokens.foldlM balanceStep [] with
  | error e =>
    obtain ⟨before, t, after, rfl, hbefore, hclosing, _⟩ := stray_of_balance hrun
    have hlength := length_of_balance hbefore
    have hinitial : before ++ [t] <+: before ++ t :: after :=
      ⟨after, (List.append_cons before t after).symm⟩
    have hnonneg := depth_prefix_of_balanced h hinitial
    rw [depth_append, depth_closing hclosing] at hnonneg
    rw [List.length_nil] at hlength
    omega
  | ok opened =>
    have hlength := length_of_balance hrun
    rw [depth_of_balanced h, List.length_nil] at hlength
    have hnil : opened = [] := List.eq_nil_of_length_eq_zero (by omega)
    rw [hnil]

theorem checkBalance_eq_ok_iff (tokens : List Token) :
    checkBalance tokens = .ok () ↔ Balanced (sides tokens) := by
  constructor
  · intro h
    cases hrun : tokens.foldlM balanceStep [] with
    | error e =>
      unfold checkBalance at h
      rw [hrun] at h
      cases h
    | ok opened =>
      cases opened with
      | nil => exact leaves_of_balance hrun
      | cons opener opened =>
        unfold checkBalance at h
        rw [hrun] at h
        cases h
  · intro h
    unfold checkBalance
    rw [balance_of_balanced h]

/-- A prefix that closes more than it opens stops the check at the first such place. -/
theorem checkBalance_of_stray {tokens p : List Token} (hp : p <+: tokens) (hdepth : depth p < 0) :
    ∃ before t after, tokens = before ++ t :: after ∧ depth (before ++ [t]) < 0 ∧
      (∀ q, q <+: before → 0 ≤ depth q) ∧
      checkBalance tokens = .error (.atToken .strayClosing t) := by
  cases hrun : tokens.foldlM balanceStep [] with
  | ok opened =>
    have hnonneg := depth_prefix_of_balance hrun hp
    omega
  | error e =>
    obtain ⟨before, t, after, rfl, hbefore, hclosing, rfl⟩ := stray_of_balance hrun
    have hlength := length_of_balance hbefore
    refine ⟨before, t, after, rfl, ?_, ?_, ?_⟩
    · rw [depth_append, depth_closing hclosing]
      rw [List.length_nil] at hlength
      omega
    · intro q hq
      exact depth_prefix_of_balance hbefore hq
    · unfold checkBalance
      rw [hrun]

/-- A brace with nothing but balanced tokens after it is left open, and no later one
is. -/
theorem last_leftOpen (before : List Token) {after : List Token} {t : Token}
    (hopening : t.lexeme = .brace .opening) (hafter : Balanced (sides after)) :
    LeftOpen before t after ∧ ∀ before' t' after', before ++ t :: after = before' ++ t' :: after' →
      LeftOpen before' t' after' → before'.length ≤ before.length := by
  constructor
  · refine ⟨hopening, ?_⟩
    intro p hp
    have hnonneg := depth_prefix_of_balanced hafter hp
    rw [depth_append, depth_append, depth_cons t p]
    omega
  · intro before' t' after' heq hopen
    by_contra hlater
    rw [Nat.not_le] at hlater
    -- a later brace stands in what is balanced, so that it is closed after it
    rcases List.append_eq_append_iff.mp heq with ⟨between, hbefore', hrest⟩ | ⟨between, hbefore, _⟩
    · cases between with
      | nil =>
        rw [List.append_nil] at hbefore'
        rw [hbefore'] at hlater
        exact absurd hlater (Nat.lt_irrefl _)
      | cons u middle =>
        obtain ⟨rfl, hafter'⟩ := List.cons.inj hrest
        change after = middle ++ t' :: after' at hafter'
        subst hafter'
        have hmiddle := depth_prefix_of_balanced hafter (List.prefix_append middle _)
        have htotal := depth_of_balanced hafter
        have hkept := hopen.kept after' (List.prefix_refl after')
        rw [depth_append, depth_cons t' after', depth_opening hopen.opening] at htotal
        rw [depth_append, depth_append, depth_cons t' after'] at hkept
        omega
    · rw [hbefore, List.length_append] at hlater
      omega

/-- If no prefix closes more than it opens, the check blames the last brace that is
left open. -/
theorem checkBalance_of_open {tokens : List Token} (hdepth : ∀ p, p <+: tokens → 0 ≤ depth p)
    (hnot : ¬ Balanced (sides tokens)) :
    ∃ before t after, tokens = before ++ t :: after ∧ LeftOpen before t after ∧
      (∀ before' t' after', tokens = before' ++ t' :: after' → LeftOpen before' t' after' →
        before'.length ≤ before.length) ∧
      checkBalance tokens = .error (.atToken .openBlock t) := by
  cases hrun : tokens.foldlM balanceStep [] with
  | error e =>
    obtain ⟨before, t, after, rfl, hbefore, hclosing, _⟩ := stray_of_balance hrun
    have hlength := length_of_balance hbefore
    have hnonneg := hdepth (before ++ [t]) ⟨after, (List.append_cons before t after).symm⟩
    rw [depth_append, depth_closing hclosing] at hnonneg
    rw [List.length_nil] at hlength
    omega
  | ok opened =>
    have hleaves := leaves_of_balance hrun
    cases opened with
    | nil => exact absurd hleaves hnot
    | cons opener opened =>
      obtain ⟨before, after, rfl, hopener, _, hafter⟩ := hleaves
      obtain ⟨hopen, hlast⟩ := last_leftOpen before hopener hafter
      refine ⟨before, opener, after, rfl, hopen, hlast, ?_⟩
      unfold checkBalance
      rw [hrun]

/-- The check passes exactly the tokens whose braces are balanced. Otherwise it blames
the first closing brace that has no partner, whatever follows it, or else the last
opening brace after which no more braces are closed than opened. -/
theorem checkBalance_blames (tokens : List Token) :
    (checkBalance tokens = .ok () ↔ Balanced (sides tokens)) ∧
    ((∃ p, p <+: tokens ∧ depth p < 0) → ∃ before t after, tokens = before ++ t :: after ∧
      depth (before ++ [t]) < 0 ∧ (∀ q, q <+: before → 0 ≤ depth q) ∧
      FailsAt tokens t "Unmatched '\x7d'") ∧
    ((∀ p, p <+: tokens → 0 ≤ depth p) → ¬ Balanced (sides tokens) →
      ∃ before t after, tokens = before ++ t :: after ∧ LeftOpen before t after ∧
      (∀ before' t' after', tokens = before' ++ t' :: after' → LeftOpen before' t' after' →
        before'.length ≤ before.length) ∧
      FailsAt tokens t "Missing closing brace '\x7d'") := by
  refine ⟨checkBalance_eq_ok_iff tokens, ?_, ?_⟩
  · rintro ⟨p, hp, hdepth⟩
    obtain ⟨before, t, after, htokens, hstray, hfirst, hcheck⟩ := checkBalance_of_stray hp hdepth
    exact ⟨before, t, after, htokens, hstray, hfirst, _, hcheck, rfl, rfl, rfl⟩
  · intro hdepth hnot
    obtain ⟨before, t, after, htokens, hopen, hlast, hcheck⟩ := checkBalance_of_open hdepth hnot
    exact ⟨before, t, after, htokens, hopen, hlast, _, hcheck, rfl, rfl, rfl⟩

end Source

end Crafter
