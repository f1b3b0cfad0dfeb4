import Crafter.Proofs.Stepping

/-! What one token can do to a reading. All later proofs about tokens that are
read go through `Takes`, and none of them looks into the parser. -/
namespace Crafter.Reading

open Grammar

/-- All that a token can do to a reading that takes it in: where the reading has
to be, what the token has to be, and the reading that follows. -/
inductive Takes (r : Reading) (t : Token) : Reading → Prop where
  | declare (hmode : r.mode = .between) (ht : t.lexeme = .keyword .declare) :
      Takes r t { r with mode := .declared t }
  | print (hmode : r.mode = .between) (ht : t.lexeme = .keyword .print) :
      Takes r t { r with mode := .printing t }
  | branch (hmode : r.mode = .between) (ht : t.lexeme = .keyword .branch) :
      Takes r t { r with mode := .compared (.conditional t) }
  | loop (hmode : r.mode = .between) (ht : t.lexeme = .keyword .loop) :
      Takes r t { r with mode := .compared (.loop t) }
  | closer {block : OpenBlock} {outer : List OpenBlock} (hmode : r.mode = .between)
      (hblocks : r.blocks = block :: outer) (ht : t.lexeme = .brace .closing) :
      Takes r t (r.close block outer)
  | name {keyword : Token} {name : String} (hmode : r.mode = .declared keyword)
      (ht : t.lexeme = .identifier name) : Takes r t { r with mode := .named keyword name t }
  | equals {keyword target : Token} {name : String} (hmode : r.mode = .named keyword name target)
      (ht : t.lexeme = .operator "=") :
      Takes r t { r with mode := .expression (.declaration keyword name target) [] }
  | text {keyword : Token} {contents : String} (hmode : r.mode = .printing keyword)
      (ht : t.lexeme = .string contents) :
      Takes r t (r.add (.printText contents keyword.span.start))
  | firstPart {keyword : Token} (hmode : r.mode = .printing keyword) (ht : IsPart t) :
      Takes r t { r with mode := .expression (.print keyword) [t.span.text] }
  | part {owner : ExpressionOwner} {parts : List String}
      (hmode : r.mode = .expression owner parts) (ht : IsPart t) :
      Takes r t { r with mode := .expression owner (t.span.text :: parts) }
  | left {owner : ComparisonOwner} (hmode : r.mode = .compared owner) (ht : IsOperand t) :
      Takes r t { r with mode := .related owner t }
  | operator {owner : ComparisonOwner} {left : Token} {operator : String}
      (hmode : r.mode = .related owner left) (known : operator ∈ comparisons)
      (ht : t.lexeme = .operator operator) :
      Takes r t { r with mode := .closing owner left operator }
  | right {owner : ComparisonOwner} {left : Token} {operator : String}
      (hmode : r.mode = .closing owner left operator) (ht : IsOperand t) :
      Takes r t { r with mode := .opening (owner.block ⟨left, operator, t⟩) }
  | opener {owner : BlockOwner} (hmode : r.mode = .opening owner)
      (ht : t.lexeme = .brace .opening) :
      Takes r t
        { r with mode := .between, blocks := ⟨owner, t, r.complete⟩ :: r.blocks, complete := [] }
  | otherwise {test : Condition} {body : List Statement} {loc : Position}
      (hmode : r.mode = .decided test body loc) (ht : t.lexeme = .keyword .otherwise) :
      Takes r t { r with mode := .opening (.alternative test body loc) }

theorem takes_of_begin {r q : Reading} {t : Token} (hmode : r.mode = .between)
    (h : r.begin t = .ok q) : r.Takes t q := by
  unfold begin at h
  split at h
  · next ht =>
    cases h
    exact .declare hmode ht
  · next ht =>
    cases h
    exact .print hmode ht
  · next ht =>
    cases h
    exact .branch hmode ht
  · next ht =>
    cases h
    exact .loop hmode ht
  · next block outer ht hblocks =>
    cases h
    exact .closer hmode hblocks ht
  · cases h
  · cases h

theorem takes_of_take {r q : Reading} {t : Token} (hc : r.continues t = true)
    (h : r.take t = .ok q) : r.Takes t q := by
  unfold take at h
  split at h
  · next hmode => exact takes_of_begin hmode h
  · next keyword hmode =>
    split at h
    · next name ht =>
      cases h
      exact .name hmode ht
    · cases h
  · next keyword name target hmode =>
    split at h
    · next ht =>
      cases h
      exact .equals hmode ht
    · cases h
  · next keyword hmode =>
    split at h
    · next contents ht =>
      cases h
      exact .text hmode ht
    · next hstring =>
      -- `take` does not look at the token here, but `continues` has
      cases h
      rcases (continues_printing hmode t).mp hc with ⟨contents, ht⟩ | ht
      · exact absurd ht (hstring contents)
      · exact .firstPart hmode ((inExpression_iff t).mp ht)
  · next owner parts hmode =>
    cases h
    rw [continues_expression hmode] at hc
    exact .part hmode ((inExpression_iff t).mp hc)
  · next owner hmode =>
    cases hop : operand t with
    | error e => rw [hop] at h; cases h
    | ok left =>
      rw [hop] at h
      cases h
      obtain ⟨rfl, ht⟩ := operand_eq_ok hop
      exact .left hmode ht
  · next owner left hmode =>
    split at h
    · next operator ht =>
      split at h
      · next hsome =>
        cases h
        exact .operator hmode ((isSome_ofSpelling?_iff operator).mp hsome) ht
      · cases h
    · cases h
  · next owner left operator hmode =>
    cases hop : operand t with
    | error e => rw [hop] at h; cases h
    | ok right =>
      rw [hop] at h
      cases h
      obtain ⟨rfl, ht⟩ := operand_eq_ok hop
      exact .right hmode ht
  · next owner hmode =>
    split at h
    · next ht =>
      cases h
      exact .opener hmode ht
    · cases h
  · next test body loc hmode =>
    cases h
    exact .otherwise hmode ((continues_decided hmode t).mp hc)

/-- A token is taken in by the reading as it is, or by what it settles to. -/
theorem step_cases {r r' : Reading} {t : Token} (h : r.step t = .ok r') :
    ∃ q q', (q = r ∨ r.settle = .ok q) ∧ q.Takes t q' ∧ r' = { q' with last := some t } := by
  unfold step at h
  cases hc : r.continues t with
  | true =>
    rw [hc] at h
    change (r.take t >>= _) = _ at h
    cases htake : r.take t with
    | error e => rw [htake] at h; cases h
    | ok q =>
      rw [htake] at h
      cases h
      exact ⟨r, q, Or.inl rfl, takes_of_take hc htake, rfl⟩
  | false =>
    rw [hc] at h
    change (r.settle >>= _) = _ at h
    cases hsettle : r.settle with
    | error e => rw [hsettle] at h; cases h
    | ok q =>
      rw [hsettle] at h
      change (q.take t >>= _) = _ at h
      cases htake : q.take t with
      | error e => rw [htake] at h; cases h
      | ok q' =>
        rw [htake] at h
        cases h
        have hbetween := mode_of_settle hsettle (expected_of_not_continues hc)
        have htakes := takes_of_take (continues_between hbetween t) htake
        exact ⟨q, q', Or.inr rfl, htakes, rfl⟩

theorem continues_of_takes {r q : Reading} {t : Token} (h : r.Takes t q) :
    r.continues t = true := by
  obtain ⟨mode, blocks, complete, last⟩ := r
  cases h with
  | text hmode ht => exact (continues_printing hmode t).mpr (Or.inl ⟨_, ht⟩)
  | firstPart hmode ht =>
    exact (continues_printing hmode t).mpr (Or.inr ((inExpression_iff t).mpr ht))
  | part hmode ht => exact (continues_expression hmode t).trans ((inExpression_iff t).mpr ht)
  | otherwise hmode ht => exact (continues_decided hmode t).mpr ht
  | _ hmode =>
    cases hmode
    rfl

theorem begin_of_takes {r q : Reading} {t : Token} (h : r.Takes t q)
    (hmode : r.mode = .between) : r.begin t = .ok q := by
  unfold begin
  cases h with
  | declare _ ht | print _ ht | branch _ ht | loop _ ht =>
    rw [ht]
    rfl
  | closer _ hblocks ht => rw [ht, hblocks]
  | _ hmode' =>
    rw [hmode] at hmode'
    cases hmode'

theorem take_of_takes {r q : Reading} {t : Token} (h : r.Takes t q) : r.take t = .ok q := by
  have htakes := h
  unfold take
  cases h with
  | name hmode ht =>
    rw [hmode]
    dsimp only
    rw [ht]
    rfl
  | text hmode ht =>
    rw [hmode]
    dsimp only
    rw [ht]
  | equals hmode ht | opener hmode ht =>
    rw [hmode]
    exact if_pos ht
  | firstPart hmode ht =>
    rw [hmode]
    dsimp only
    split
    · next contents hstring =>
      rw [← inExpression_iff, hstring] at ht
      cases ht
    · rfl
  | left hmode ht | right hmode ht =>
    rw [hmode]
    dsimp only
    rw [take_operand ht]
    rfl
  | operator hmode known ht =>
    rw [hmode]
    dsimp only
    rw [ht]
    exact if_pos ((isSome_ofSpelling?_iff _).mpr known)
  | part hmode | otherwise hmode =>
    rw [hmode]
    rfl
  | declare hmode | print hmode | branch hmode | loop hmode | closer hmode =>
    rw [hmode]
    exact begin_of_takes htakes hmode

/-- The cases of `Takes` are not only all there are, each of them also happens. -/
theorem step_of_takes {r q : Reading} {t : Token} (h : r.Takes t q) :
    r.step t = .ok { q with last := some t } := by
  unfold step
  rw [continues_of_takes h]
  change (r.take t >>= _) = _
  rw [take_of_takes h]
  rfl

end Crafter.Reading
