import Crafter.Proofs.Parsing
import Crafter.Proofs.Refusal
import Crafter.Proofs.Spelling

/-! Whatever the parser has read can be completed: some tokens finish the
statement under way, and closing braces end the blocks that are open. -/
namespace Crafter

open Grammar

/-- The tokens begin a program. -/
def Program.Begins (tokens : List Token) : Prop :=
  ∃ more p, (∀ t ∈ more, t.WellSpelt) ∧ ofTokens (tokens ++ more) = .ok p

namespace Completion

/-- A token as it is written, at no place in particular. -/
def written (lexeme : Lexeme) (text : String) : Token := ⟨lexeme, "", .first, .first, text⟩

def plainName : Token := written (.identifier "x") "x"

def equalsSign : Token := written (.operator "=") "="

def lessSign : Token := written (.operator "<") "<"

def openingBrace : Token := written (.brace .opening) "\x7b"

def closingBrace : Token := written (.brace .closing) "\x7d"

/-- The tokens that completions are made of. -/
def vocabulary : List Token := [plainName, equalsSign, lessSign, openingBrace, closingBrace]

theorem wellSpelt_of_mem : ∀ t ∈ vocabulary, t.WellSpelt := by
  have hletter : ∀ c ∈ ['x'], c.isAlpha = true := by
    intro c hc
    rw [List.mem_singleton.mp hc]
    rfl
  have hname : plainName.WellSpelt :=
    .identifier ['x'] (List.cons_ne_nil _ _) hletter fun word => by cases word <;> decide
  have hequals : equalsSign.WellSpelt := .operator '=' (by decide)
  have hless : lessSign.WellSpelt := .operator '<' (by decide)
  have hopening : openingBrace.WellSpelt := .opening
  have hclosing : closingBrace.WellSpelt := .closing
  simp [vocabulary, hname, hequals, hless, hopening, hclosing]

theorem isOperand_plainName : IsOperand plainName := Or.inl ⟨"x", rfl⟩

theorem isPart_plainName : IsPart plainName := Or.inl isOperand_plainName

end Completion

open Completion

/-- Tokens that finish what the parser is in the middle of. A block that is still
to be opened stays empty. -/
def Mode.completion : Mode → List Token
  | .between | .decided .. => []
  | .declared _ => [plainName, equalsSign, plainName]
  | .named .. => [equalsSign, plainName]
  | .printing _ | .expression .. => [plainName]
  | .compared _ => [plainName, lessSign, plainName, openingBrace, closingBrace]
  | .related .. => [lessSign, plainName, openingBrace, closingBrace]
  | .closing .. => [plainName, openingBrace, closingBrace]
  | .opening _ => [openingBrace, closingBrace]

theorem Mode.completion_subset (mode : Mode) : mode.completion ⊆ vocabulary := by
  cases mode <;> simp [completion, vocabulary]

namespace Reading

/-- The tokens lead to where the statement under way may end, all blocks still
open that were open before. -/
def CompletedBy (r : Reading) (ts : List Token) : Prop :=
  ∃ q cs l, r.run ts = .ok q ∧ q.Agrees ⟨.between, r.blocks, cs, l⟩

theorem completedBy_cons {r q : Reading} {t : Token} {ts : List Token} (htakes : r.Takes t q)
    (hblocks : q.blocks = r.blocks) (h : CompletedBy { q with last := some t } ts) :
    r.CompletedBy (t :: ts) := by
  obtain ⟨q', cs, l, hrun, hagrees⟩ := h
  have hstep := step_of_takes htakes
  refine ⟨q', cs, l, (run_cons_ok hstep ts).trans hrun, ?_⟩
  rw [← hblocks]
  exact hagrees

section

variable (bs : List OpenBlock) (cs : List Statement) (l : Option Token)

theorem completedBy_expression (owner : ExpressionOwner) (parts : List String) :
    CompletedBy ⟨.expression owner parts, bs, cs, l⟩ [plainName] := by
  have hpart : Takes ⟨.expression owner parts, bs, cs, l⟩ plainName
      ⟨.expression owner (plainName.span.text :: parts), bs, cs, l⟩ := .part rfl isPart_plainName
  cases owner with
  | declaration keyword declared target =>
    exact completedBy_cons hpart rfl ⟨_, _, _, rfl, agrees_of_expression rfl⟩
  | print keyword =>
    exact completedBy_cons hpart rfl ⟨_, _, _, rfl, agrees_of_expression rfl⟩

theorem close_agrees (l : Option Token) (block : OpenBlock) (outer : List OpenBlock) :
    ∃ cs' l', (close ⟨.between, [], cs, l⟩ block outer).Agrees ⟨.between, outer, cs', l'⟩ := by
  obtain ⟨owner, opener, before⟩ := block
  cases owner with
  | consequence test loc => exact ⟨_, _, agrees_decided test cs.reverse loc outer before l⟩
  | alternative test body loc => exact ⟨_, _, Agrees.refl _⟩
  | loop test loc => exact ⟨_, _, Agrees.refl _⟩

theorem completedBy_opening (owner : BlockOwner) :
    CompletedBy ⟨.opening owner, bs, cs, l⟩ [openingBrace, closingBrace] := by
  let block : Block Phrase := ⟨⟨openingBrace, rfl⟩, [], ⟨closingBrace, rfl⟩⟩
  have hrun := run_block block owner bs cs l
  obtain ⟨cs', l', hagrees⟩ :=
    close_agrees block.tree.reverse (some closingBrace) ⟨owner, openingBrace, cs⟩ bs
  exact ⟨_, cs', l', hrun, hagrees⟩

theorem completedBy_closing (owner : ComparisonOwner) (left : Token) (operator : String) :
    CompletedBy ⟨.closing owner left operator, bs, cs, l⟩ [plainName, openingBrace, closingBrace] :=
  completedBy_cons (.right rfl isOperand_plainName) rfl
    (completedBy_opening bs cs (some plainName) (owner.block ⟨left, operator, plainName⟩))

theorem completedBy_related (owner : ComparisonOwner) (left : Token) :
    CompletedBy ⟨.related owner left, bs, cs, l⟩
      [lessSign, plainName, openingBrace, closingBrace] :=
  completedBy_cons (.operator rfl (by decide) rfl) rfl
    (completedBy_closing bs cs (some lessSign) owner left "<")

theorem completedBy_named (keyword : Token) (declared : String) (target : Token) :
    CompletedBy ⟨.named keyword declared target, bs, cs, l⟩ [equalsSign, plainName] :=
  completedBy_cons (.equals rfl rfl) rfl
    (completedBy_expression bs cs (some equalsSign) (.declaration keyword declared target) [])

end

/-- Every statement under way can be finished. -/
theorem completedBy_completion (r : Reading) : r.CompletedBy r.mode.completion := by
  obtain ⟨mode, bs, cs, l⟩ := r
  cases mode with
  | between => exact ⟨_, cs, l, rfl, Agrees.refl _⟩
  | decided test body loc => exact ⟨_, _, l, rfl, agrees_decided test body loc bs cs l⟩
  | declared keyword =>
    have hname : Takes ⟨.declared keyword, bs, cs, l⟩ plainName
        ⟨.named keyword "x" plainName, bs, cs, l⟩ := .name rfl rfl
    have hnamed := completedBy_named bs cs (some plainName) keyword "x" plainName
    exact completedBy_cons hname rfl hnamed
  | named keyword declared target => exact completedBy_named bs cs l keyword declared target
  | printing keyword =>
    have hfirst : Takes ⟨.printing keyword, bs, cs, l⟩ plainName
        ⟨.expression (.print keyword) [plainName.span.text], bs, cs, l⟩ :=
      .firstPart rfl isPart_plainName
    exact completedBy_cons hfirst rfl ⟨_, _, _, rfl, agrees_of_expression rfl⟩
  | expression owner parts => exact completedBy_expression bs cs l owner parts
  | compared owner =>
    have hleft : Takes ⟨.compared owner, bs, cs, l⟩ plainName
        ⟨.related owner plainName, bs, cs, l⟩ := .left rfl isOperand_plainName
    exact completedBy_cons hleft rfl (completedBy_related bs cs (some plainName) owner plainName)
  | related owner left => exact completedBy_related bs cs l owner left
  | closing owner left operator => exact completedBy_closing bs cs l owner left operator
  | opening owner => exact completedBy_opening bs cs l owner

/-- As many closing braces as there are open blocks end a program. -/
theorem exists_finish_of_closings {bs : List OpenBlock} {r : Reading} {cs : List Statement}
    {l : Option Token} (h : r.Agrees ⟨.between, bs, cs, l⟩) :
    ∃ q p, r.run (List.replicate bs.length closingBrace) = .ok q ∧ q.finish = .ok p := by
  -- from the innermost block outwards: each brace leaves a statement that may end
  induction bs generalizing r cs l with
  | nil => exact ⟨r, cs.reverse, rfl, h.finish⟩
  | cons block outer ih =>
    obtain ⟨cs', l', hclose⟩ := close_agrees cs (some closingBrace) block outer
    obtain ⟨q, p, hrun, hfinish⟩ := ih hclose
    have hstep : step ⟨.between, block :: outer, cs, l⟩ closingBrace =
        .ok (close ⟨.between, [], cs, some closingBrace⟩ block outer) :=
      step_closer outer cs l rfl block
    refine ⟨q, p, ?_, hfinish⟩
    rw [List.length_cons, List.replicate_succ, run_of_agrees h (endsPhrase_closing rfl),
      run_cons_ok hstep]
    exact hrun

end Reading

namespace Program

open Reading

/-- Tokens that the parser has read without an error begin a program. -/
theorem begins_of_run {tokens : List Token} {r : Reading} (h : start.run tokens = .ok r) :
    Begins tokens := by
  obtain ⟨q, cs, l, hcompleted, hagrees⟩ := completedBy_completion r
  obtain ⟨q', p, hclosed, hfinish⟩ := exists_finish_of_closings hagrees
  let more := r.mode.completion ++ List.replicate r.blocks.length closingBrace
  have hspelt : ∀ t ∈ more, t.WellSpelt := by
    intro t ht
    apply wellSpelt_of_mem
    rcases List.mem_append.mp ht with ht | ht
    · exact r.mode.completion_subset ht
    · rw [List.eq_of_mem_replicate ht]
      decide
  have hrun : start.run (tokens ++ more) = .ok q' := by
    rw [run_append_ok h, run_append_ok hcompleted, hclosed]
  exact ⟨more, p, hspelt, (ofTokens_eq_finish hrun).trans hfinish⟩

end Program

end Crafter
