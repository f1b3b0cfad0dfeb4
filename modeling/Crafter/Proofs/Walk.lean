import Crafter.Program.Whole
import Crafter.Proofs.Agreement
import Crafter.Proofs.Legible

/-! The walk through the statements of a program against the tokens that it was read
from. Every keyword but the one before a second block begins a statement, and the walk
comes to these statements in the order of their keywords. -/
namespace Crafter

/-- The form of the statement that begins with the keyword. The keyword of a second block
begins none. -/
def Keyword.kind? : Keyword → Option StatementKind
  | .declare => some .declaration
  | .print => some .print
  | .branch => some .conditional
  | .loop => some .loop
  | .otherwise => none

/-- The statement that begins at the token, by its form and its place. -/
def Token.opens? (t : Token) : Option Frame :=
  match t.lexeme with
  | .keyword word => word.kind?.map fun kind => ⟨kind, t.span.start⟩
  | _ => none

namespace Grammar

theorem opens?_keyword {word : Keyword} (t : Terminal (.keyword word)) :
    t.val.opens? = word.kind?.map fun kind => ⟨kind, t.val.span.start⟩ := by
  unfold Token.opens?
  rw [t.property]

theorem opens?_brace {brace : Brace} (t : Terminal (.brace brace)) : t.val.opens? = none := by
  unfold Token.opens?
  rw [t.property]

theorem opens?_part {t : Token} (h : IsPart t) : t.opens? = none := by
  unfold Token.opens?
  rcases h with (⟨name, h⟩ | ⟨value, h⟩) | ⟨spelling, h⟩ <;> rw [h]

theorem opens?_content (phrase : Phrase) : phrase.content.filterMap Token.opens? = [] := by
  rw [List.filterMap_eq_nil_iff]
  intro t ht
  have in_test {test : Test} (ht : t ∈ test.tokens) : t.opens? = none := by
    simp only [Test.tokens, List.mem_cons, List.not_mem_nil, or_false] at ht
    rcases ht with rfl | rfl | rfl
    · exact opens?_part (Or.inl test.left.property)
    · exact opens?_part (Or.inr ⟨_, test.operator.property⟩)
    · exact opens?_part (Or.inl test.right.property)
  cases phrase with
  | declaration keyword name target equals value =>
    rcases List.mem_cons.mp ht with rfl | ht
    · exact opens?_part (Or.inl (Or.inl ⟨_, target.property⟩))
    rcases List.mem_cons.mp ht with rfl | ht
    · exact opens?_part (Or.inr ⟨_, equals.property⟩)
    · exact opens?_part (value.plain t ht)
  | printText keyword contents text =>
    rw [List.mem_singleton.mp ht, Token.opens?, text.property]
  | printValue keyword value => exact opens?_part (value.plain t ht)
  | conditional | alternative | loop => exact in_test ht

/-- A statement's own tokens show its frame and nothing else. -/
theorem opens?_own (phrase : Phrase) :
    (phrase.keyword :: phrase.content).filterMap Token.opens? = [phrase.tree.frame] := by
  have hkeyword : phrase.keyword.opens? = some phrase.tree.frame := by
    cases phrase with
    | declaration keyword | printText keyword | printValue keyword | conditional keyword
    | alternative keyword | loop keyword => exact opens?_keyword keyword
  rw [List.filterMap_cons_some hkeyword, opens?_content]

mutual

theorem phrase_opens? : ∀ phrase : Phrase, phrase.tokens.filterMap Token.opens? =
    phrase.withNested.map fun phrase => phrase.tree.frame
  | .declaration keyword name target equals value => by
    rw [Phrase.withNested]
    exact opens?_own (.declaration keyword name target equals value)
  | .printText keyword contents text => by
    rw [Phrase.withNested]
    exact opens?_own (.printText keyword contents text)
  | .printValue keyword value => by
    rw [Phrase.withNested]
    exact opens?_own (.printValue keyword value)
  | .conditional keyword test body => by
    have hown := opens?_own (.conditional keyword test body)
    rw [Phrase.withNested, Phrase.tokens, ← List.cons_append, List.filterMap_append,
      block_opens? body]
    exact congrArg (· ++ _) hown
  | .alternative keyword test body otherwise other => by
    have hown := opens?_own (.alternative keyword test body otherwise other)
    have hotherwise : otherwise.val.opens? = none := opens?_keyword otherwise
    rw [Phrase.withNested, Phrase.tokens, ← List.cons_append, List.filterMap_append,
      List.filterMap_append, List.filterMap_cons_none hotherwise, block_opens? body,
      block_opens? other, ← List.map_append]
    exact congrArg (· ++ _) hown
  | .loop keyword test body => by
    have hown := opens?_own (.loop keyword test body)
    rw [Phrase.withNested, Phrase.tokens, ← List.cons_append, List.filterMap_append,
      block_opens? body]
    exact congrArg (· ++ _) hown

theorem block_opens? : ∀ block : Block Phrase, (Block.tokens block).filterMap Token.opens? =
    (Block.phrases block).map fun phrase => phrase.tree.frame
  | ⟨opener, body, closer⟩ => by
    rw [Block.tokens, Block.phrases, List.filterMap_cons_none (opens?_brace opener),
      List.filterMap_append, derivation_opens? body,
      List.filterMap_cons_none (opens?_brace closer), List.filterMap_nil, List.append_nil]

/-- The keywords among the tokens of a derivation show its statements. -/
theorem derivation_opens? : ∀ d : List Phrase, (Derivation.tokens d).filterMap Token.opens? =
    (Derivation.phrases d).map fun phrase => phrase.tree.frame
  | [] => rfl
  | phrase :: d => by
    rw [Derivation.tokens, Derivation.phrases, List.filterMap_append, List.map_append,
      phrase_opens? phrase, derivation_opens? d]

end

end Grammar

namespace Program

open Grammar

variable {tokens : List Token} {p : Program}

mutual

theorem absentPart?_withNested : ∀ s : Statement, s.Genuine →
    ∀ t ∈ s.withNested, t.absentPart? = none
  | .declaration .., _ | .printText .., _ | .printValue .., _ => by
    intro t ht
    rw [List.mem_singleton.mp ht]
    rfl
  | .conditional test body alternative loc, h => by
    intro t ht
    rw [Statement.withNested] at ht
    rcases List.mem_cons.mp ht with rfl | ht
    · rfl
    rcases List.mem_append.mp ht with ht | ht
    · exact absentPart?_statements body h.1 t ht
    · exact absentPart?_statements alternative h.2 t ht
  | .loop test body loc, h => by
    intro t ht
    rw [Statement.withNested] at ht
    rcases List.mem_cons.mp ht with rfl | ht
    · rfl
    · exact absentPart?_statements body h t ht
  | .foreign .., h | .absent _, h => h.elim

theorem absentPart?_statements : ∀ p : List Statement, Genuine p →
    ∀ t ∈ statements p, t.absentPart? = none
  | [], _ => nofun
  | s :: rest, h => by
    intro t ht
    rw [statements] at ht
    rcases List.mem_append.mp ht with ht | ht
    · exact absentPart?_withNested s h.1 t ht
    · exact absentPart?_statements rest h.2 t ht

end

/-- The walk through a program text's tree does not break off. -/
theorem walk?_eq_ok (h : Genuine p) : p.walk? = .ok (statements p) := by
  have hwhole : (statements p).findSome? Statement.absentPart? = none :=
    List.findSome?_eq_none_iff.mpr (absentPart?_statements p h)
  unfold walk? requireBlocks
  rw [hwhole]
  rfl

theorem frames_eq (h : ofTokens tokens = .ok p) :
    (statements p).map Statement.frame = tokens.filterMap Token.opens? := by
  obtain ⟨d, rfl, rfl⟩ := exists_derivation_of_ofTokens h
  rw [derivation_opens?, statements_tree, List.map_map]
  rfl

/-- The forms that the statements of a program text can have. -/
def formKinds : List StatementKind := [.declaration, .print, .conditional, .loop]

theorem kind_mem_formKinds (h : ofTokens tokens = .ok p) {s : Statement}
    (hs : s ∈ statements p) : s.kind ∈ formKinds := by
  obtain ⟨d, rfl, rfl⟩ := exists_derivation_of_ofTokens h
  rw [statements_tree] at hs
  obtain ⟨phrase, -, rfl⟩ := List.mem_map.mp hs
  cases phrase <;> simp [formKinds, Phrase.tree, Statement.kind]

theorem mem_ofKind_iff {kind : StatementKind} {s : Statement} :
    s ∈ p.ofKind kind ↔ s ∈ statements p ∧ s.kind = kind := by
  unfold ofKind
  rw [List.mem_filter, decide_eq_true_iff]

/-- The statements of different forms are different statements. -/
theorem disjoint_ofKind {kind other : StatementKind} (h : kind ≠ other) :
    List.Disjoint (p.ofKind kind) (p.ofKind other) := by
  intro s hs hother
  exact h ((mem_ofKind_iff.mp hs).2.symm.trans (mem_ofKind_iff.mp hother).2)

/-- The walk through the program of a source comes to one statement for each keyword that
begins one, in the order of the tokens, each with the form that belongs to the keyword and
the keyword's place. The places ascend, so that none is met twice, and the statements of
the four forms share them out: all are among them, in order, and none is in two. -/
theorem walk_of_source {file source : String} (h : ofSource file source = .ok (tokens, p)) :
    p.walk? = .ok (statements p) ∧
    (statements p).map Statement.frame = tokens.filterMap Token.opens? ∧
    (statements p).Pairwise (fun s t => s.loc.Before t.loc) ∧
    ((statements p).map Statement.loc).Nodup ∧
    (formKinds.flatMap p.ofKind).Perm (statements p) ∧
    (∀ kind ∈ formKinds, (p.ofKind kind).Sublist (statements p)) ∧
    (formKinds.map p.ofKind).Pairwise List.Disjoint := by
  obtain ⟨hscan, hparse⟩ := (ofSource_eq_ok_iff file source tokens p).mp h
  have hplaces := (legible_of_scan hscan hparse).places
  have hlocs : ((statements p).map Statement.loc).Nodup :=
    Position.nodup_of_pairwise_before (List.pairwise_map.mpr hplaces)
  have hnodup : (statements p).Nodup := hlocs.of_map
  have hdisjoint : formKinds.Pairwise fun a b => List.Disjoint (p.ofKind a) (p.ofKind b) := by
    have hkinds : formKinds.Nodup := by decide
    exact hkinds.imp disjoint_ofKind
  refine ⟨walk?_eq_ok (genuine_of_ofTokens hparse), frames_eq hparse, hplaces, hlocs, ?_,
    fun _ _ => List.filter_sublist, List.pairwise_map.mpr hdisjoint⟩
  have hparts : (formKinds.flatMap p.ofKind).Nodup :=
    List.nodup_flatMap.mpr ⟨fun _ _ => hnodup.filter _, hdisjoint⟩
  rw [List.perm_ext_iff_of_nodup hparts hnodup]
  intro s
  rw [List.mem_flatMap]
  constructor
  · rintro ⟨kind, -, hs⟩
    exact (mem_ofKind_iff.mp hs).1
  · intro hs
    exact ⟨s.kind, kind_mem_formKinds hparse hs, mem_ofKind_iff.mpr ⟨hs, rfl⟩⟩

end Program

/-! A loop around a conditional with two blocks, the second of them empty, and a
conditional without a second block after it. -/
namespace Sample

def walkedSource : String :=
  Text.joinLines ["maano i = 0 jabtak i < 2 \x7b",
    "  agar i == 1 \x7b likho \"maano\" \x7d warna \x7b \x7d", "  maano i = i + 1", "\x7d agar i > 1 \x7b likho i \x7d"]

def walked : List Token × Program := Program.ofSourceD Source.unnamed walkedSource

theorem ofSource_walked : Program.ofSource Source.unnamed walkedSource = .ok walked :=
  Program.ofSource_eq_of_isOk (by decide +kernel)

end Sample

theorem Program.walk_of_source_sample :
    ofSource Source.unnamed Sample.walkedSource = .ok Sample.walked ∧
    Sample.walked.1.filterMap Token.opens? =
      [⟨.declaration, 1, 1⟩, ⟨.loop, 1, 13⟩, ⟨.conditional, 2, 3⟩, ⟨.print, 2, 17⟩,
        ⟨.declaration, 3, 3⟩, ⟨.conditional, 4, 3⟩, ⟨.print, 4, 16⟩] ∧
    Sample.walked.2.walk? = .ok (statements Sample.walked.2) ∧
    (statements Sample.walked.2).map Statement.frame = Sample.walked.1.filterMap Token.opens? ∧
    (formKinds.flatMap (ofKind · Sample.walked.2)).Perm (statements Sample.walked.2) :=
  have hwalk := walk_of_source Sample.ofSource_walked
  ⟨Sample.ofSource_walked, by decide +kernel, hwalk.1, hwalk.2.1, hwalk.2.2.2.2.1⟩

end Crafter
