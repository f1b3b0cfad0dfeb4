import Crafter.Proofs.Grammar
import Crafter.Proofs.Place
import Mathlib.Data.List.Infix

/-! The statements of a program and the phrases that they stand for, nested ones
included: which tokens are a statement's own, and that the statements start in
the order of the text. -/
namespace Crafter

/-- The name that the token is, if it is one. -/
def Lexeme.names : Lexeme → List String
  | .identifier name => [name]
  | _ => []

namespace Grammar

/-- The tokens of a statement outside its blocks and their braces, after its
keyword. -/
def Phrase.content : Phrase → List Token
  | .declaration _ _ target equals value => target.val :: equals.val :: value.tokens
  | .printText _ _ text => [text.val]
  | .printValue _ value => value.tokens
  | .conditional _ test _ | .alternative _ test _ _ _ | .loop _ test _ => test.tokens

def Phrase.keyword : Phrase → Token
  | .declaration keyword _ _ _ _ => keyword
  | .printText keyword _ _ | .printValue keyword _ => keyword
  | .conditional keyword _ _ | .alternative keyword _ _ _ _ => keyword
  | .loop keyword _ _ => keyword

/-- The place where a phrase starts: that of its keyword. -/
def Phrase.start (phrase : Phrase) : Position := phrase.keyword.span.start

/-- The names in a statement's own expression or condition, in the order of the
text. The name that a declaration gives a value is not one of them. -/
def Phrase.names : Phrase → List String
  | .declaration _ _ _ _ value | .printValue _ value => value.tokens.flatMap (·.lexeme.names)
  | .printText .. => []
  | .conditional _ test _ | .alternative _ test _ _ _ | .loop _ test _ =>
    test.left.val.lexeme.names ++ test.right.val.lexeme.names

mutual

/-- A phrase and all phrases inside it, in the order of the text. -/
def Phrase.withNested : Phrase → List Phrase
  | .conditional keyword test body => .conditional keyword test body :: Block.phrases body
  | .alternative keyword test body otherwise other =>
    .alternative keyword test body otherwise other :: (Block.phrases body ++ Block.phrases other)
  | .loop keyword test body => .loop keyword test body :: Block.phrases body
  | .declaration keyword name target equals value =>
    [.declaration keyword name target equals value]
  | .printText keyword contents text => [.printText keyword contents text]
  | .printValue keyword value => [.printValue keyword value]

def Block.phrases : Block Phrase → List Phrase
  | ⟨_, body, _⟩ => Derivation.phrases body

/-- All phrases of a derivation, nested ones included, in the order of the text. -/
def Derivation.phrases : List Phrase → List Phrase
  | [] => []
  | phrase :: rest => phrase.withNested ++ Derivation.phrases rest

end

mutual

theorem phrase_withNested_tree : ∀ phrase : Phrase,
    phrase.tree.withNested = phrase.withNested.map Phrase.tree
  | .declaration .. | .printText .. | .printValue .. => by
    simp [Phrase.tree, Phrase.withNested, Statement.withNested]
  | .conditional keyword test body => by
    simp [Phrase.tree, Phrase.withNested, Statement.withNested, Program.statements,
      block_phrases_tree body]
  | .alternative keyword test body otherwise other => by
    simp [Phrase.tree, Phrase.withNested, Statement.withNested, block_phrases_tree body,
      block_phrases_tree other]
  | .loop keyword test body => by
    simp [Phrase.tree, Phrase.withNested, Statement.withNested, block_phrases_tree body]

theorem block_phrases_tree : ∀ block : Block Phrase,
    Program.statements (Block.tree block) = (Block.phrases block).map Phrase.tree
  | ⟨_, body, _⟩ => by
    rw [Block.tree, Block.phrases]
    exact statements_tree body

/-- The statements of a tree are the trees of the derivation's phrases. -/
theorem statements_tree : ∀ d : List Phrase,
    Program.statements (Derivation.tree d) = (Derivation.phrases d).map Phrase.tree
  | [] => rfl
  | phrase :: d => by
    rw [Derivation.tree, Program.statements, Derivation.phrases, List.map_append,
      phrase_withNested_tree phrase, statements_tree d]

end

/-- The tokens of phrases outside their blocks. -/
def ownTokens (phrases : List Phrase) : List Token :=
  phrases.flatMap fun phrase => phrase.keyword :: phrase.content

theorem ownTokens_cons (phrase : Phrase) (phrases : List Phrase) :
    ownTokens (phrase :: phrases) = phrase.keyword :: (phrase.content ++ ownTokens phrases) := by
  unfold ownTokens
  rw [List.flatMap_cons, List.cons_append]

theorem ownTokens_singleton (phrase : Phrase) :
    ownTokens [phrase] = phrase.keyword :: phrase.content := by
  rw [ownTokens_cons, ownTokens, List.flatMap_nil, List.append_nil]

theorem ownTokens_append (phrases more : List Phrase) :
    ownTokens (phrases ++ more) = ownTokens phrases ++ ownTokens more :=
  List.flatMap_append

mutual

theorem phrase_ownTokens : ∀ phrase : Phrase, (ownTokens phrase.withNested).Sublist phrase.tokens
  | .declaration keyword name target equals value => by
    rw [Phrase.withNested, Phrase.tokens, ownTokens_singleton]
    exact List.Sublist.refl _
  | .printText keyword contents text => by
    rw [Phrase.withNested, Phrase.tokens, ownTokens_singleton]
    exact List.Sublist.refl _
  | .printValue keyword value => by
    rw [Phrase.withNested, Phrase.tokens, ownTokens_singleton]
    exact List.Sublist.refl _
  | .conditional keyword test body => by
    rw [Phrase.withNested, Phrase.tokens, ownTokens_cons]
    exact .cons_cons _ ((block_ownTokens body).append_left _)
  | .alternative keyword test body otherwise other => by
    rw [Phrase.withNested, Phrase.tokens, ownTokens_cons, ownTokens_append]
    have hother := (block_ownTokens other).trans (List.sublist_cons_self otherwise.val _)
    exact .cons_cons _ (((block_ownTokens body).append hother).append_left _)
  | .loop keyword test body => by
    rw [Phrase.withNested, Phrase.tokens, ownTokens_cons]
    exact .cons_cons _ ((block_ownTokens body).append_left _)

theorem block_ownTokens : ∀ block : Block Phrase,
    (ownTokens (Block.phrases block)).Sublist (Block.tokens block)
  | ⟨opener, body, closer⟩ => by
    rw [Block.phrases, Block.tokens]
    exact .cons _ ((ownTokens_sublist body).trans (List.sublist_append_left _ _))

/-- The tokens outside all blocks stand among the tokens in the order of the
phrases. -/
theorem ownTokens_sublist : ∀ d : List Phrase,
    (ownTokens (Derivation.phrases d)).Sublist (Derivation.tokens d)
  | [] => List.nil_sublist _
  | phrase :: d => by
    rw [Derivation.phrases, Derivation.tokens, ownTokens_append]
    exact (phrase_ownTokens phrase).append (ownTokens_sublist d)

end

theorem mem_tokens_of_own {d : Derivation} {phrase : Phrase} (h : phrase ∈ Derivation.phrases d)
    {t : Token} (ht : t ∈ phrase.keyword :: phrase.content) : t ∈ Derivation.tokens d :=
  (ownTokens_sublist d).subset (List.mem_flatMap.mpr ⟨phrase, h, ht⟩)

mutual

theorem phrase_own_adjacent (own : Phrase) : ∀ phrase : Phrase, own ∈ phrase.withNested →
    own.keyword :: own.content <:+: phrase.tokens
  | .declaration keyword name target equals value, h => by
    rw [Phrase.withNested, List.mem_singleton] at h
    rw [h, Phrase.tokens]
    exact List.infix_rfl
  | .printText keyword contents text, h => by
    rw [Phrase.withNested, List.mem_singleton] at h
    rw [h, Phrase.tokens]
    exact List.infix_rfl
  | .printValue keyword value, h => by
    rw [Phrase.withNested, List.mem_singleton] at h
    rw [h, Phrase.tokens]
    exact List.infix_rfl
  | .conditional keyword test body, h => by
    rw [Phrase.withNested] at h
    rw [Phrase.tokens]
    rcases List.mem_cons.mp h with rfl | h
    · exact (List.prefix_append (keyword.val :: test.tokens) _).isInfix
    · have hbody := block_own_adjacent own body h
      exact List.infix_cons (hbody.trans (List.suffix_append _ _).isInfix)
  | .alternative keyword test body otherwise other, h => by
    rw [Phrase.withNested] at h
    rw [Phrase.tokens]
    rcases List.mem_cons.mp h with rfl | h
    · exact (List.prefix_append (keyword.val :: test.tokens) _).isInfix
    · apply List.infix_cons
      refine List.IsInfix.trans ?_ (List.suffix_append _ _).isInfix
      rcases List.mem_append.mp h with h | h
      · exact (block_own_adjacent own body h).trans (List.prefix_append _ _).isInfix
      · have hother := List.infix_cons (a := otherwise.val) (block_own_adjacent own other h)
        exact hother.trans (List.suffix_append _ _).isInfix
  | .loop keyword test body, h => by
    rw [Phrase.withNested] at h
    rw [Phrase.tokens]
    rcases List.mem_cons.mp h with rfl | h
    · exact (List.prefix_append (keyword.val :: test.tokens) _).isInfix
    · have hbody := block_own_adjacent own body h
      exact List.infix_cons (hbody.trans (List.suffix_append _ _).isInfix)

theorem block_own_adjacent (own : Phrase) : ∀ block : Block Phrase, own ∈ Block.phrases block →
    own.keyword :: own.content <:+: Block.tokens block
  | ⟨opener, body, closer⟩, h => by
    rw [Block.tokens]
    exact List.infix_cons ((own_adjacent own body h).trans (List.prefix_append _ _).isInfix)

/-- The own tokens of a phrase stand side by side. -/
theorem own_adjacent (own : Phrase) : ∀ d : List Phrase, own ∈ Derivation.phrases d →
    own.keyword :: own.content <:+: Derivation.tokens d
  | [], h => by cases h
  | phrase :: d, h => by
    rw [Derivation.phrases] at h
    rw [Derivation.tokens]
    rcases List.mem_append.mp h with h | h
    · exact (phrase_own_adjacent own phrase h).trans (List.prefix_append _ _).isInfix
    · exact (own_adjacent own d h).trans (List.suffix_append _ _).isInfix

end

theorem loc_tree (phrase : Phrase) : phrase.tree.loc = phrase.start := by
  cases phrase <;> rfl

/-- The statements of a source start one after the other. -/
theorem pairwise_loc {d : Derivation} (h : (Derivation.tokens d).Pairwise fun a b =>
    a.span.start.Before b.span.start) :
    (Program.statements (Derivation.tree d)).Pairwise fun s t => s.loc.Before t.loc := by
  have hown := h.sublist (ownTokens_sublist d)
  rw [statements_tree, List.pairwise_map]
  generalize Derivation.phrases d = phrases at hown
  induction phrases with
  | nil => exact .nil
  | cons phrase phrases ih =>
    rw [ownTokens_cons] at hown
    obtain ⟨hfirst, hrest⟩ := List.pairwise_cons.mp hown
    refine List.pairwise_cons.mpr ⟨?_, ih (List.pairwise_append.mp hrest).2.1⟩
    intro other hother
    rw [loc_tree, loc_tree]
    apply hfirst
    apply List.mem_append_right
    exact List.mem_flatMap.mpr ⟨other, hother, List.mem_cons_self⟩

end Grammar

end Crafter
