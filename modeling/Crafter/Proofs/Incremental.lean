import Crafter.Proofs.Agreement
import Crafter.Proofs.Equivariance
import Crafter.Proofs.LineBreak

/-! Sources that are run one after the other on one machine, and the same
sources joined to one text: both ways come to the same end. -/
namespace Crafter

theorem Token.translate_moving (f : Position → Position) (t : Token) :
    t.translate (.moving f) = t.relocate f :=
  translate_of_refl rfl t

namespace Program

open Grammar

/-- Two programs in a row are a program: no token of the second one continues
the last statement of the first. -/
theorem ofTokens_append {ts us : List Token} {p q : Program} (hp : ofTokens ts = .ok p)
    (hq : ofTokens us = .ok q) : ofTokens (ts ++ us) = .ok (p ++ q) := by
  obtain ⟨d, rfl, rfl⟩ := exists_derivation_of_ofTokens hp
  obtain ⟨e, rfl, rfl⟩ := exists_derivation_of_ofTokens hq
  have hboth := ofTokens_derivation (d ++ e)
  rw [derivation_tokens_append, derivation_tree_append] at hboth
  exact hboth

theorem ofTokens_relocate (f : Position → Position) {tokens : List Token} {p : Program}
    (h : ofTokens tokens = .ok p) :
    ofTokens (tokens.map (Token.relocate f)) = .ok (translate (.moving f) p) := by
  rw [← ofTokens_translate (.moving f) h, funext (Token.translate_moving f)]

end Program

/-- So many lines further down; names, columns and files stay. -/
def Translation.down (lines : Nat) : Translation := .moving (Position.down lines)

/-- A source that is a program. -/
structure Accepted (file : String) where
  source : String
  tokens : List Token
  program : Program
  parsed : Program.ofSource file source = .ok (tokens, program)

namespace Accepted

variable {file : String}

/-- How many lines the source has. -/
def lines (text : Accepted file) : Nat := text.source.toList.count '\n' + 1

/-- The sources below one another, in one text. -/
def join (texts : List (Accepted file)) : String := Text.joinLines (texts.map (·.source))

/-- The tokens of sources that stand below one another, with so many lines
above the first of them. -/
def tokensBelow (above : Nat) : List (Accepted file) → List Token
  | [] => []
  | text :: rest =>
    text.tokens.map (Token.relocate (Position.down above)) ++ tokensBelow (above + text.lines) rest

def bodyBelow (above : Nat) : List (Accepted file) → Program
  | [] => []
  | text :: rest =>
    Program.translate (.down above) text.program ++ bodyBelow (above + text.lines) rest

theorem scan_eq (text : Accepted file) : Source.scan file text.source = .ok text.tokens :=
  ((Program.ofSource_eq_ok_iff file text.source text.tokens text.program).mp text.parsed).1

theorem ofTokens_eq (text : Accepted file) : Program.ofTokens text.tokens = .ok text.program :=
  ((Program.ofSource_eq_ok_iff file text.source text.tokens text.program).mp text.parsed).2

theorem join_singleton (text : Accepted file) : join [text] = text.source := by
  unfold join Text.joinLines
  rw [List.map_cons, List.map_nil, String.intercalate_singleton]

theorem toList_join_cons (text next : Accepted file) (rest : List (Accepted file)) :
    (join (text :: next :: rest)).toList =
      text.source.toList ++ '\n' :: (join (next :: rest)).toList := by
  unfold join Text.joinLines
  rw [List.map_cons, List.map_cons, String.intercalate_cons_cons, String.toList_append,
    String.toList_append, List.append_assoc]
  rfl

/-- A scan of the joined text finds the tokens of each source where it stands. -/
theorem scanFrom_join (above : Nat) (texts : List (Accepted file)) :
    Source.scanFrom file (Position.first.down above) (join texts).toList =
      .ok (tokensBelow above texts) := by
  induction texts generalizing above with
  | nil =>
    change Source.scanFrom file _ [] = _
    rw [Source.scanFrom, tokensBelow]
  | cons text rest ih =>
    have htext := Source.scanFrom_down file text.scan_eq above
    cases rest with
    | nil =>
      rw [join_singleton, htext, tokensBelow, tokensBelow, List.append_nil]
    | cons next rest =>
      rw [toList_join_cons, Source.scanFrom_line file htext, Position.advanceAll_line,
        tokensBelow]
      change (Source.scanFrom file (Position.first.down (above + text.lines)) _).map _ = _
      rw [ih (above + text.lines)]
      rfl

theorem ofTokens_tokensBelow (above : Nat) (texts : List (Accepted file)) :
    Program.ofTokens (tokensBelow above texts) = .ok (bodyBelow above texts) := by
  induction texts generalizing above with
  | nil => rfl
  | cons text rest ih =>
    rw [tokensBelow, bodyBelow]
    exact Program.ofTokens_append (Program.ofTokens_relocate _ text.ofTokens_eq)
      (ih (above + text.lines))

theorem ofSource_join (texts : List (Accepted file)) :
    Program.ofSource file (join texts) = .ok (tokensBelow 0 texts, bodyBelow 0 texts) := by
  rw [Program.ofSource_eq_ok_iff]
  exact ⟨Source.scan_of_scanFrom file (scanFrom_join 0 texts), ofTokens_tokensBelow 0 texts⟩

end Accepted

namespace Machine

/-- What the machine has recorded since it was `before`. -/
def logSince (m before : Machine) : Log :=
  ⟨m.notices.extract before.notices.size, m.entered.extract before.entered.size⟩

theorem logSince_append (m before : Machine) (log : Log) :
    (m.withLog (before.log.append log)).logSince before = log := by
  unfold logSince withLog Log.append Machine.log
  simp

theorem translate_of_stack_nil (lines : Nat) (log : Log) {m : Machine} (h : m.stack = []) :
    m.translate (.down lines) log = m.withLog (log.append (m.log.translate (.down lines))) := by
  unfold translate withLog Log.append Log.translate Machine.log
  rw [Environment.rename_refl rfl, h]
  rfl

end Machine

/-- What comes of sources that are run one after the other. The places of the
halt, and of what was recorded, are those in the joined text. -/
structure Turns where
  halt : Option Halt
  machine : Machine
  added : Log

namespace Accepted

variable {file : String}

/-- Runs each source on the machine that the one before it left, up to the first
that halts; so many lines stand above the first of them in the joined text. -/
def inTurn (above : Nat) : List (Accepted file) → Machine → Turns
  | [], m => ⟨none, m, .empty⟩
  | text :: rest, m =>
    match Program.exec text.program m with
    | (some halt, after) =>
      ⟨some (halt.translate (.down above)), after, (after.logSince m).translate (.down above)⟩
    | (none, after) =>
      let later := inTurn (above + text.lines) rest after
      { later with added := ((after.logSince m).translate (.down above)).append later.added }

theorem not_mem_empty (line : Int) : line ∉ Breakpoints.empty := List.not_mem_nil

/-- One source, here and in the joined text, after different logs. -/
theorem exec_below (above : Nat) (text : Accepted file) {m : Machine} (hstack : m.stack = [])
    (hbreakpoints : m.breakpoints = .empty) (log : Log) :
    ∃ (halt : Option Halt) (after : Machine),
    Program.exec text.program m = (halt, after.withLog (m.log.append after.log)) ∧
    Program.exec (Program.translate (.down above) text.program) (m.withLog log) =
      (halt.map (Halt.translate (.down above)),
        after.withLog (log.append (after.log.translate (.down above)))) ∧
    after.stack = [] ∧ after.breakpoints = .empty := by
  have hoperands := Program.comparesOperands_of_ofTokens text.ofTokens_eq
  have hkeeps := Program.exec_keeps text.program (m.withLog .empty)
  have hafter : (Program.exec text.program (m.withLog .empty)).2.stack = [] :=
    hkeeps.stack.trans hstack
  refine ⟨_, _, Program.exec_withLog hoperands m m.log, ?_, hafter,
    hkeeps.breakpoints.trans hbreakpoints⟩
  -- both runs are the run from an empty log, with what came before put in front
  have hfree : (Translation.down above).Respects (m.withLog .empty).breakpoints := by
    intro q
    change _ ∈ m.breakpoints ↔ _ ∈ m.breakpoints
    rw [hbreakpoints]
    exact iff_of_false (not_mem_empty _) (not_mem_empty _)
  have hmove := Program.exec_translate log hoperands text.program (List.Subset.refl _)
    (m.withLog .empty) hfree
  have hstart : (m.withLog .empty).translate (.down above) log = m.withLog log := by
    rw [Machine.translate_of_stack_nil above log (m := m.withLog .empty) hstack]
    change m.withLog (log.append (Log.empty.translate _)) = _
    rw [Log.translate_empty, Log.append_empty]
  rw [hstart] at hmove
  rw [hmove]
  unfold Step.translate
  rw [Machine.translate_of_stack_nil above log hafter]

theorem exec_bodyBelow (above : Nat) (texts : List (Accepted file)) {m : Machine}
    (hstack : m.stack = []) (hbreakpoints : m.breakpoints = .empty) (log : Log) :
    Program.exec (bodyBelow above texts) (m.withLog log) =
      ((inTurn above texts m).halt,
        (inTurn above texts m).machine.withLog (log.append (inTurn above texts m).added)) := by
  -- over the sources, for every machine and for every log of the joined run: the
  -- two machines differ in nothing but what they have recorded
  induction texts generalizing above m log with
  | nil =>
    rw [bodyBelow, Program.exec, inTurn, Log.append_empty]
  | cons text rest ih =>
    obtain ⟨halt, after, hhere, hthere, hstack', hbreakpoints'⟩ :=
      exec_below above text hstack hbreakpoints log
    rw [bodyBelow, Program.exec_append, hthere, inTurn, hhere]
    cases halt with
    | some halt =>
      dsimp only [Option.map_some]
      rw [Machine.logSince_append]
      rfl
    | none =>
      dsimp only [Option.map_none]
      rw [Machine.logSince_append]
      have hrest := ih (above + text.lines) (m := after.withLog (m.log.append after.log)) hstack'
        hbreakpoints' (log.append (after.log.translate (.down above)))
      rw [Log.append_assoc] at hrest
      exact hrest

/-- Sources that are programs make up a program when they are joined: the bodies
one after the other, each as many lines further down as there are lines in the
sources before it. It runs as the sources do in turn on one machine, to the same
halt, with the same variables, the same output and the same notices. -/
theorem run_join (texts : List (Accepted file)) (cap : Cap) :
    Program.ofSource file (join texts) = .ok (tokensBelow 0 texts, bodyBelow 0 texts) ∧
    Program.run? (bodyBelow 0 texts) .empty cap.count =
      .ok (.ofStep (inTurn 0 texts (.start .empty cap)).halt
        ((inTurn 0 texts (.start .empty cap)).machine.withLog
          (inTurn 0 texts (.start .empty cap)).added)) := by
  refine ⟨ofSource_join texts, ?_⟩
  have hgenuine := Program.genuine_of_ofTokens (ofTokens_tokensBelow 0 texts)
  have hcap : 1 ≤ (cap.count : Int) := by
    have hpositive := cap.positive
    omega
  obtain ⟨c, hc, hrun⟩ := Program.run?_eq_ok hgenuine .empty hcap
  have hsame : c = cap := by
    obtain ⟨count, _⟩ := c
    obtain ⟨count', _⟩ := cap
    cases Int.ofNat.inj hc
    rfl
  subst hsame
  rw [hrun]
  have hexec := exec_bodyBelow 0 texts (m := .start .empty c) rfl rfl .empty
  change Program.exec (bodyBelow 0 texts) (.start .empty c) = _ at hexec
  unfold Program.run
  rw [hexec, Log.empty_append]

/-- A loop that a cap of three cuts off. -/
def doubling : Accepted Source.unnamed where
  source := "maano i = 1\njabtak i < 9 \x7b\n  maano i = i * 2\n\x7d"
  tokens := _
  program := _
  parsed := Program.ofSource_eq_of_isOk (by decide +kernel)

/-- The variable of the loop, and one that is not there, below an empty line. -/
def asking : Accepted Source.unnamed where
  source := "\nlikho i\nlikho j"
  tokens := _
  program := _
  parsed := Program.ofSource_eq_of_isOk (by decide +kernel)

/-- The fault shows in the seventh line of the joined text, the notice in the second. -/
theorem run_join_pair :
    join [doubling, asking] =
      "maano i = 1\njabtak i < 9 \x7b\n  maano i = i * 2\n\x7d\n\nlikho i\nlikho j" ∧
    ∃ p o, Program.ofSource Source.unnamed (join [doubling, asking]) =
        .ok (tokensBelow 0 [doubling, asking], p) ∧
      p.run? .empty 3 = .ok o ∧ o.lines = ["8"] ∧ o.limitReached = true ∧
      o.fault.map (·.start) = some ⟨7, 1⟩ ∧ o.notices.map (·.start) = [⟨2, 1⟩] := by
  obtain ⟨hsource, hrun⟩ := run_join [doubling, asking] ⟨3, by decide⟩
  refine ⟨by decide +kernel, _, _, hsource, hrun, ?_, ?_, ?_, ?_⟩ <;> decide +kernel

end Accepted

end Crafter
