import Crafter.Proofs.Answer
import Crafter.Proofs.InputLine
import Mathlib.Data.List.DropRight

/-! A session keeps what was entered: its buffer and its breakpoints are told by
the lines of input alone, and whatever was shown on the way leaves no trace. -/
namespace Crafter

open Line

/-- Two sets of breakpoints with the same lines are the same. -/
theorem Breakpoints.eq_of_mem_iff {b b' : Breakpoints} (h : ∀ line, line ∈ b ↔ line ∈ b') :
    b = b' := by
  have hnodup (b : Breakpoints) : b.lines.Nodup := b.ascending.imp fun hlt => Int.ne_of_lt hlt
  have hperm : b.lines.Perm b'.lines := (List.perm_ext_iff_of_nodup (hnodup b) (hnodup b')).mpr h
  have heq : b.lines = b'.lines :=
    hperm.eq_of_pairwise (fun _ _ _ _ hlt hgt => absurd hgt (Int.lt_asymm hlt))
      b.ascending b'.ascending
  obtain ⟨lines, _⟩ := b
  cases heq
  rfl

/-- The lines of program text since the buffer was last cleared. -/
def enteredLines (lines : List String) : List String :=
  (lines.rtakeWhile fun line => ¬ Gives ":clear" line).filter fun line => ¬ IsCommand line

/-- How often a breakpoint was toggled. -/
def toggleCount (lines : List String) (n : Int) : Nat := (lines.filterMap breakpoint?).count n

namespace Clock

variable (clocks : Nat → Clock)

theorem later_zero (n : Nat) : later clocks n 0 = clocks n := congrArg clocks (Nat.zero_add n)

theorem later_later (m n : Nat) : later (later clocks m) n = later clocks (m + n) := by
  funext k
  exact congrArg clocks (by omega)

end Clock

namespace Session

/-- The session after lines of input that do not leave it. -/
def after (s : Session) (clocks : Nat → Clock) : List String → Session
  | [] => s
  | line :: rest => after (s.receive (clocks 0) line).session (Clock.later clocks 1) rest

/-- What is printed for lines of input that do not leave the session. -/
def shown (s : Session) (clocks : Nat → Clock) : List String → String
  | [] => ""
  | line :: rest =>
    s.prompt ++ Text.printed (s.receive (clocks 0) line).lines ++
      shown (s.receive (clocks 0) line).session (Clock.later clocks 1) rest

/-- No line of input breaks the session off. -/
def Steady (s : Session) (clocks : Nat → Clock) : List String → Prop
  | [] => True
  | line :: rest => (s.receive (clocks 0) line).failure = none ∧
    Steady (s.receive (clocks 0) line).session (Clock.later clocks 1) rest

section

variable (clock : Clock)

theorem showing_session (s : Session) (told : List String) (result : Except Failure (List String)) :
    (s.showing told result).session = s := by
  unfold showing
  split <;> rfl

/-- Only `:clear` and `:break` change a session. -/
theorem perform_of_other (s : Session) {c : Command} (hclear : c ≠ .clear)
    (hbreak : ∀ argument, c ≠ .toggleBreakpoint argument) : (s.perform clock c).session = s := by
  cases c with
  | clear => exact absurd rfl hclear
  | toggleBreakpoint argument => exact absurd rfl (hbreak argument)
  | run => exact showing_session s _ _
  | tokens => exact showing_session s _ _
  | outline => exact showing_session s _ _
  | lint => exact showing_session s _ _
  | _ => rfl

theorem perform_toggle (s : Session) (argument : String) :
    (s.perform clock (.toggleBreakpoint argument)).session =
      { s with breakpoints :=
        (Text.intOfNumeral? argument).elim s.breakpoints s.breakpoints.toggle } := by
  unfold perform
  dsimp only
  cases Text.intOfNumeral? argument <;> rfl

theorem Entry.ofLine_eq_quit_iff {line : String} :
    Entry.ofLine line = .quit ↔ trimmed line = ":quit" := by
  unfold ofLine
  by_cases hquit : trimmed line = ":quit"
  · exact iff_of_true (if_pos hquit) hquit
  · refine iff_of_false ?_ hquit
    dsimp only
    rw [if_neg (show ¬ String.ofList (Text.trim line.toList) = ":quit" from hquit)]
    split <;> nofun

theorem Entry.ofLine_of_text {line : String} (h : ¬ IsCommand line) :
    Entry.ofLine line = .text line := by
  have hquit : trimmed line ≠ ":quit" := by
    intro hquit
    refine h ?_
    rw [IsCommand, hquit]
    decide
  unfold ofLine
  exact (if_neg hquit).trans (if_neg h)

theorem Entry.ofLine_of_command {line : String} (h : IsCommand line)
    (hquit : trimmed line ≠ ":quit") : Entry.ofLine line = .command (trimmed line) := by
  unfold ofLine
  exact (if_neg hquit).trans (if_pos h)

theorem receive_of_text (s : Session) {line : String} (h : ¬ IsCommand line) :
    s.receive clock line = ⟨{ s with buffer := s.buffer ++ [line] }, [], none⟩ := by
  rw [receive, Entry.ofLine_of_text h]

theorem receive_of_quit (s : Session) {line : String} (h : trimmed line = ":quit") :
    s.receive clock line = ⟨s, [], none⟩ := by
  have hentry : Entry.ofLine line = .quit := if_pos h
  rw [receive, hentry]

theorem receive_of_command (s : Session) {line : String} (h : IsCommand line)
    (hquit : trimmed line ≠ ":quit") :
    s.receive clock line = s.perform clock (Command.ofLine (trimmed line)) := by
  rw [receive, Entry.ofLine_of_command h hquit]
  rfl

/-- What one line of input does to a session. -/
theorem receive_session (s : Session) (line : String) :
    (s.receive clock line).session =
      { s with
        buffer := if Gives ":clear" line then [] else if IsCommand line then s.buffer
          else s.buffer ++ [line]
        breakpoints := (breakpoint? line).elim s.breakpoints s.breakpoints.toggle } := by
  by_cases hcommand : IsCommand line
  · rw [if_pos hcommand]
    by_cases hquit : trimmed line = ":quit"
    · have hgives : Gives ":quit" line := Or.inl hquit
      have hclear : ¬ Gives ":clear" line := fun h =>
        absurd (gives_unique (by decide) (by decide) hgives h) (by decide)
      have hbreak : ¬ Gives ":break" line := fun h =>
        absurd (gives_unique (by decide) (by decide) hgives h) (by decide)
      rw [receive_of_quit clock s hquit, if_neg hclear, breakpoint?, if_neg hbreak]
      rfl
    · rw [receive_of_command clock s hcommand hquit, breakpoint?]
      have hclear : (Command.split (trimmed line)).1 = ":clear" ↔ Gives ":clear" line :=
        Command.split_name_iff (by decide) line
      have hbreak : (Command.split (trimmed line)).1 = ":break" ↔ Gives ":break" line :=
        Command.split_name_iff (by decide) line
      rcases Command.ofLine_cases (trimmed line) with
        ⟨hname, hof⟩ | ⟨hname, hof⟩ | ⟨hne, hne', hof, hof'⟩
      · have hother : ¬ Gives ":break" line := fun h =>
          absurd (hname.symm.trans (hbreak.mpr h)) (by decide)
        rw [hof, if_pos (hclear.mp hname), if_neg hother]
        rfl
      · have hother : ¬ Gives ":clear" line := fun h =>
          absurd (hname.symm.trans (hclear.mpr h)) (by decide)
        rw [hof, if_neg hother, if_pos (hbreak.mp hname), perform_toggle,
          Command.split_argument hname]
        rfl
      · rw [perform_of_other clock s hof hof', if_neg (mt hclear.mpr hne), if_neg (mt hbreak.mpr hne')]
        rfl
  · have hclear : ¬ Gives ":clear" line := mt (isCommand_of_gives (by decide)) hcommand
    have hbreak : ¬ Gives ":break" line := mt (isCommand_of_gives (by decide)) hcommand
    rw [receive_of_text clock s hcommand, if_neg hclear, if_neg hcommand, breakpoint?, if_neg hbreak]
    rfl

end

theorem after_concat (s : Session) (clocks : Nat → Clock) (lines : List String) (line : String) :
    s.after clocks (lines ++ [line]) =
      ((s.after clocks lines).receive (clocks lines.length) line).session := by
  induction lines generalizing s clocks with
  | nil => rfl
  | cons first lines ih => exact ih _ _

theorem enteredLines_concat (lines : List String) (line : String) :
    enteredLines (lines ++ [line]) =
      if Gives ":clear" line then [] else if IsCommand line then enteredLines lines
        else enteredLines lines ++ [line] := by
  unfold enteredLines
  rw [List.rtakeWhile_concat]
  by_cases hclear : Gives ":clear" line
  · rw [if_pos hclear, if_neg (by simpa using hclear)]
    rfl
  · rw [if_neg hclear, if_pos (by simpa using hclear), List.filter_append]
    by_cases hcommand : IsCommand line
    · rw [if_pos hcommand, List.filter_cons_of_neg (by simpa using hcommand), List.filter_nil,
        List.append_nil]
    · rw [if_neg hcommand, List.filter_cons_of_pos (by simpa using hcommand), List.filter_nil]

/-- What a session holds after the given lines: the program lines since the last
`:clear`, and the breakpoints that were toggled an odd number of times. -/
structure Records (cap : Int) (debug : Bool) (lines : List String) (s : Session) : Prop where
  buffer : s.buffer = enteredLines lines
  breakpoints : ∀ n, n ∈ s.breakpoints ↔ toggleCount lines n % 2 = 1
  cap : s.cap = cap
  debug : s.debug = debug

theorem records_concat {cap : Int} {debug : Bool} {lines : List String} {s : Session}
    (h : s.Records cap debug lines) (clock : Clock) (line : String) :
    (s.receive clock line).session.Records cap debug (lines ++ [line]) := by
  rw [receive_session]
  refine ⟨?_, ?_, h.cap, h.debug⟩
  · rw [enteredLines_concat, ← h.buffer]
  · intro n
    have hcount : toggleCount (lines ++ [line]) n =
        toggleCount lines n + toggleCount [line] n := by
      unfold toggleCount
      rw [List.filterMap_append, List.count_append]
    rw [hcount]
    cases hline : breakpoint? line with
    | none =>
      have hnone : toggleCount [line] n = 0 := by
        unfold toggleCount
        rw [List.filterMap_cons_none hline]
        rfl
      rw [hnone]
      exact h.breakpoints n
    | some toggled =>
      have hone : toggleCount [line] n = if n = toggled then 1 else 0 := by
        unfold toggleCount
        rw [List.filterMap_cons_some hline, List.filterMap_nil, List.count_singleton]
        exact if_congr (beq_iff_eq.trans eq_comm) rfl rfl
      rw [hone]
      refine (Breakpoints.mem_toggle _ _ _).trans ?_
      by_cases hn : n = toggled
      · have hold := h.breakpoints toggled
        subst hn
        rw [if_pos rfl, if_pos rfl, hold]
        omega
      · rw [if_neg hn, if_neg hn]
        exact h.breakpoints n

/-- A session that began with an empty buffer holds what its lines tell. -/
theorem records_after (cap : Int) (debug : Bool) (clocks : Nat → Clock) (lines : List String) :
    ((start cap debug).after clocks lines).Records cap debug lines := by
  induction lines using List.reverseRecOn with
  | nil =>
    refine ⟨rfl, fun n => ⟨?_, nofun⟩, rfl, rfl⟩
    exact fun hn => absurd hn List.not_mem_nil
  | append_singleton lines line ih =>
    rw [after_concat]
    exact records_concat ih _ line

theorem Records.unique {cap : Int} {debug : Bool} {lines : List String} {s s' : Session}
    (h : s.Records cap debug lines) (h' : s'.Records cap debug lines) : s = s' := by
  have hbreakpoints : s.breakpoints = s'.breakpoints :=
    Breakpoints.eq_of_mem_iff fun n => (h.breakpoints n).trans (h'.breakpoints n).symm
  obtain ⟨buffer, breakpoints, _, _⟩ := s
  cases h.buffer.trans h'.buffer.symm
  cases hbreakpoints
  cases h.cap.trans h'.cap.symm
  cases h.debug.trans h'.debug.symm
  rfl

theorem converse_cons (s : Session) (clocks : Nat → Clock) {line : String}
    (hstay : trimmed line ≠ ":quit") (rest : List String) :
    s.converse clocks (line :: rest) =
      match (s.receive (clocks 0) line).failure with
      | some failure => ⟨s.shown clocks [line], some failure⟩
      | none => ((s.receive (clocks 0) line).session.converse (Clock.later clocks 1) rest).after
          (s.shown clocks [line]) := by
  have hshown : s.shown clocks [line] =
      s.prompt ++ Text.printed (s.receive (clocks 0) line).lines :=
    String.append_empty
  rw [hshown, converse]
  exact if_neg (mt Entry.ofLine_eq_quit_iff.mp hstay)

/-- Lines that neither leave a session nor break it off are shown, and the
session that they lead to goes on. -/
theorem converse_append {s : Session} {clocks : Nat → Clock} {lines : List String}
    (hstay : ∀ line ∈ lines, trimmed line ≠ ":quit") (hsteady : s.Steady clocks lines)
    (rest : List String) :
    s.converse clocks (lines ++ rest) =
      ((s.after clocks lines).converse (Clock.later clocks lines.length) rest).after
        (s.shown clocks lines) := by
  induction lines generalizing s clocks with
  | nil => exact (congrArg (Transcript.mk · _) String.empty_append).symm
  | cons line lines ih =>
    obtain ⟨hline, hlines⟩ := List.forall_mem_cons.mp hstay
    obtain ⟨hfirst, hlater⟩ := hsteady
    rw [List.cons_append, converse_cons s clocks hline, hfirst]
    dsimp only
    rw [ih hlines hlater, shown, shown, shown, String.append_empty]
    exact congrArg (Transcript.mk · _) String.append_assoc.symm

theorem steady_of_converse {s : Session} {clocks : Nat → Clock} {lines rest : List String}
    (hstay : ∀ line ∈ lines, trimmed line ≠ ":quit")
    (h : (s.converse clocks (lines ++ rest)).failure = none) : s.Steady clocks lines := by
  induction lines generalizing s clocks with
  | nil => trivial
  | cons line lines ih =>
    obtain ⟨hline, hlines⟩ := List.forall_mem_cons.mp hstay
    rw [List.cons_append, converse_cons s clocks hline] at h
    cases hfailure : (s.receive (clocks 0) line).failure with
    | some failure =>
      rw [hfailure] at h
      cases h
    | none =>
      rw [hfailure] at h
      exact ⟨hfailure, ih hlines h⟩

theorem showing_of_error (s : Session) (told : List String) {failure : Failure}
    (h : ∀ e, failure ≠ .malformed e) :
    s.showing told (.error failure) = ⟨s, s.narrate told, some failure⟩ := by
  cases failure with
  | malformed e => exact absurd rfl (h e)
  | _ => rfl

/-- `:run` prints the report on the buffer. -/
theorem perform_run {s : Session} (clock : Clock) {report : Report} {text : String}
    (hreport : s.request.report = .ok report) (htext : report.text (some s.source) = .ok text) :
    s.perform clock .run =
      ⟨s, s.narrate (Narration.ofRequest s.request clock) ++ [text], none⟩ := by
  unfold perform
  dsimp only
  rw [hreport]
  dsimp only [bind, Except.bind]
  rw [htext]
  rfl

/-- In a session that goes on, every `:run` prints the report on the buffer. -/
theorem exists_report_of_run {s : Session} {clock : Clock}
    (h : (s.perform clock .run).failure = none) :
    ∃ report text, s.request.report = .ok report ∧ report.text (some s.source) = .ok text := by
  rcases s.request.report_cases_of_breakpoints with ⟨failure, hother, herror⟩ | hok
  · have hbreaks : (s.perform clock .run).failure = some failure := by
      unfold perform
      dsimp only
      rw [show s.request.report = .error failure from herror s.breakpoints]
      exact congrArg Reply.failure (showing_of_error s _ hother)
    cases h.symm.trans hbreaks
  · obtain ⟨report, hreport, hformed⟩ := hok s.breakpoints
    obtain ⟨text, htext⟩ := Report.exists_text hformed (some s.source)
    exact ⟨report, text, hreport, htext⟩

/-- The sessions differ in their breakpoints at most. -/
def Alike (s s' : Session) : Prop := ∃ breakpoints, s' = { s with breakpoints := breakpoints }

theorem Alike.receive {s s' : Session} (h : s.Alike s') (clock clock' : Clock) (line : String) :
    (s.receive clock line).session.Alike (s'.receive clock' line).session := by
  obtain ⟨b, rfl⟩ := h
  rw [receive_session, receive_session]
  exact ⟨_, rfl⟩

theorem showing_failure (s s' : Session) (told told' : List String)
    (result : Except Failure (List String)) :
    (s.showing told result).failure = (s'.showing told' result).failure := by
  unfold showing
  split <;> rfl

/-- Whether a command breaks the session off does not depend on the breakpoints and
not on the clock. -/
theorem Alike.perform_failure {s s' : Session} (h : s.Alike s') {clock : Clock} {c : Command}
    (hc : (s.perform clock c).failure = none) (clock' : Clock) :
    (s'.perform clock' c).failure = none := by
  obtain ⟨b, rfl⟩ := h
  cases c with
  | run =>
    obtain ⟨report, _, hreport, _⟩ := exists_report_of_run hc
    rcases s.request.report_cases_of_breakpoints with ⟨failure, _, herror⟩ | hok
    · cases hreport.symm.trans (herror s.breakpoints)
    · obtain ⟨report', hreport', hformed⟩ := hok b
      obtain ⟨text, htext⟩ := Report.exists_text hformed (some s.source)
      rw [perform_run (s := { s with breakpoints := b }) clock' hreport' htext]
  | toggleBreakpoint argument =>
    unfold perform
    dsimp only
    cases Text.intOfNumeral? argument <;> rfl
  | tokens => exact (showing_failure _ s _ _ _).trans hc
  | outline => exact (showing_failure _ s _ _ _).trans hc
  | lint => exact (showing_failure _ s _ _ _).trans hc
  | _ => rfl

theorem Alike.receive_failure {s s' : Session} (h : s.Alike s') {clock : Clock} {line : String}
    (hline : (s.receive clock line).failure = none) (clock' : Clock) :
    (s'.receive clock' line).failure = none := by
  by_cases hcommand : IsCommand line
  · by_cases hquit : trimmed line = ":quit"
    · rw [receive_of_quit clock' s' hquit]
    · rw [receive_of_command _ _ hcommand hquit] at hline ⊢
      exact h.perform_failure hline clock'
  · rw [receive_of_text clock' s' hcommand]

theorem Alike.symm {s s' : Session} (h : s.Alike s') : s'.Alike s := by
  obtain ⟨b, rfl⟩ := h
  exact ⟨s.breakpoints, rfl⟩

theorem Alike.trans {s s' s'' : Session} (h : s.Alike s') (h' : s'.Alike s'') : s.Alike s'' := by
  obtain ⟨b, rfl⟩ := h
  obtain ⟨b', rfl⟩ := h'
  exact ⟨b', rfl⟩

/-- A `:break` command changes the breakpoints only, and always succeeds. -/
theorem receive_of_break (clock : Clock) (s : Session) {line : String}
    (h : Gives ":break" line) :
    (s.receive clock line).session.Alike s ∧ (s.receive clock line).failure = none := by
  have hcommand : IsCommand line := isCommand_of_gives (by decide) h
  have hquit : trimmed line ≠ ":quit" := fun hquit =>
    absurd (gives_unique (by decide) (by decide) h (Or.inl hquit)) (by decide)
  have hname : (Command.split (trimmed line)).1 = ":break" :=
    (Command.split_name_iff (by decide) line).mpr h
  rw [receive_of_command clock s hcommand hquit]
  rcases Command.ofLine_cases (trimmed line) with ⟨hclear, _⟩ | ⟨_, hof⟩ | ⟨_, hbreak, _⟩
  · exact absurd (hname.symm.trans hclear) (by decide)
  · rw [hof, perform_toggle]
    refine ⟨⟨_, rfl⟩, ?_⟩
    unfold perform
    dsimp only
    cases Text.intOfNumeral? _ <;> rfl
  · exact absurd hname hbreak

/-- The lines without the `:break` commands among them. -/
def withoutBreaks (lines : List String) : List String :=
  lines.filter fun line => ¬ Gives ":break" line

/-- Without its `:break` commands a session comes to the same, but for the
breakpoints. -/
theorem Alike.withoutBreaks {s s' : Session} (h : s.Alike s') (clocks clocks' : Nat → Clock)
    (lines : List String) :
    (s.after clocks lines).Alike (s'.after clocks' (withoutBreaks lines)) ∧
      (s.Steady clocks lines ↔ s'.Steady clocks' (Session.withoutBreaks lines)) := by
  unfold Session.withoutBreaks
  induction lines generalizing s s' clocks clocks' with
  | nil => exact ⟨h, Iff.rfl⟩
  | cons line lines ih =>
    by_cases hbreak : Gives ":break" line
    · obtain ⟨hsession, hfailure⟩ := receive_of_break (clocks 0) s hbreak
      rw [List.filter_cons_of_neg (by simpa using hbreak)]
      obtain ⟨hafter, hsteady⟩ := ih (hsession.trans h) (Clock.later clocks 1) clocks'
      exact ⟨hafter, (and_iff_right hfailure).trans hsteady⟩
    · rw [List.filter_cons_of_pos (by simpa using hbreak)]
      obtain ⟨hafter, hsteady⟩ := ih (h.receive (clocks 0) (clocks' 0) line) (Clock.later clocks 1)
        (Clock.later clocks' 1)
      have hfailure : (s.receive (clocks 0) line).failure = none ↔
          (s'.receive (clocks' 0) line).failure = none :=
        ⟨fun hline => h.receive_failure hline _, fun hline => h.symm.receive_failure hline _⟩
      exact ⟨hafter, and_congr hfailure hsteady⟩

/-- Moving `:break` commands about changes nothing that a session holds. -/
theorem after_of_reordered (cap : Int) (debug : Bool) (clocks : Nat → Clock)
    {lines lines' : List String} (hperm : lines'.Perm lines)
    (hothers : withoutBreaks lines' = withoutBreaks lines) :
    (start cap debug).after clocks lines' = (start cap debug).after clocks lines ∧
      ((start cap debug).Steady clocks lines → (start cap debug).Steady clocks lines') := by
  have hself : (start cap debug).Alike (start cap debug) := ⟨_, rfl⟩
  obtain ⟨hafter, hsteady⟩ := hself.withoutBreaks clocks clocks lines
  obtain ⟨hafter', hsteady'⟩ := hself.withoutBreaks clocks clocks lines'
  rw [hothers] at hafter' hsteady'
  refine ⟨?_, fun h => hsteady'.mpr (hsteady.mp h)⟩
  have hrecords := records_after cap debug clocks lines
  have hrecords' := records_after cap debug clocks lines'
  obtain ⟨b, hb⟩ := hafter'.trans hafter.symm
  refine Records.unique ⟨?_, ?_, hrecords'.cap, hrecords'.debug⟩ hrecords
  · rw [← hrecords.buffer, hb]
  · intro n
    have hcount : toggleCount lines' n = toggleCount lines n :=
      (hperm.filterMap breakpoint?).count_eq n
    rw [← hcount]
    exact hrecords'.breakpoints n

theorem receive_of_run (clock : Clock) (s : Session) {line : String} (h : Gives ":run" line) :
    trimmed line ≠ ":quit" ∧ s.receive clock line = s.perform clock .run := by
  have hquit : trimmed line ≠ ":quit" := fun hquit =>
    absurd (gives_unique (by decide) (by decide) h (Or.inl hquit)) (by decide)
  refine ⟨hquit, ?_⟩
  rw [receive_of_command clock s (isCommand_of_gives (by decide) h) hquit,
    Command.ofLine_of_run ((Command.split_name_iff (by decide) line).mpr h)]

theorem converse_run {s : Session} {clocks : Nat → Clock} {line : String} {later : List String}
    (hrun : Gives ":run" line) (h : (s.converse clocks (line :: later)).failure = none) :
    ∃ report text, s.request.report = .ok report ∧ report.text (some s.source) = .ok text ∧
      s.converse clocks (line :: later) = (s.converse (Clock.later clocks 1) later).after
        (s.prompt ++ Text.printed
          (s.narrate (Narration.ofRequest s.request (clocks 0)) ++ [text])) := by
  obtain ⟨hquit, hreceive⟩ := receive_of_run (clocks 0) s hrun
  have hsteady : s.Steady clocks [line] :=
    steady_of_converse (List.forall_mem_singleton.mpr hquit) h
  have hfailure := hsteady.1
  rw [hreceive] at hfailure
  obtain ⟨report, text, hreport, htext⟩ := exists_report_of_run hfailure
  refine ⟨report, text, hreport, htext, ?_⟩
  rw [converse_cons s clocks hquit, shown, shown, String.append_empty, hreceive,
    perform_run (clocks 0) hreport htext]

/-- At every point of a session that no command breaks off, the session holds
what the lines so far tell, and goes on from there. Every `:run` prints the
report on the buffer, and the order of the `:break` commands does not matter. -/
theorem converse_records (cap : Int) (debug : Bool) (clocks : Nat → Clock)
    (before rest : List String) (hstay : ∀ line ∈ before, trimmed line ≠ ":quit")
    (hanswer : ((start cap debug).converse clocks (before ++ rest)).failure = none) :
    ∃ s : Session, s.Records cap debug before ∧ (start cap debug).after clocks before = s ∧
      (start cap debug).converse clocks (before ++ rest) =
        (s.converse (Clock.later clocks before.length) rest).after
          ((start cap debug).shown clocks before) ∧
      (∀ line later, rest = line :: later → Gives ":run" line →
        ∃ report text,
          Request.report ⟨Text.joinLines (enteredLines before), Source.unnamed, s.breakpoints, cap⟩ =
            .ok report ∧
          report.text (some (Text.joinLines (enteredLines before))) = .ok text ∧
          s.converse (Clock.later clocks before.length) rest =
            (s.converse (Clock.later clocks (before.length + 1)) later).after (s.prompt ++
              Text.printed (s.narrate
                (Narration.ofRequest s.request (clocks before.length)) ++ [text]))) ∧
      ∀ before', before'.Perm before → withoutBreaks before' = withoutBreaks before →
        (start cap debug).after clocks before' = s ∧
        ∀ later, (start cap debug).converse clocks (before' ++ later) =
          (s.converse (Clock.later clocks before.length) later).after
            ((start cap debug).shown clocks before') := by
  have hrecords := records_after cap debug clocks before
  have hsteady := steady_of_converse hstay hanswer
  have hgoes := converse_append hstay hsteady rest
  rw [hgoes] at hanswer
  dsimp only [Transcript.after] at hanswer
  refine ⟨_, hrecords, rfl, hgoes, ?_, ?_⟩
  · rintro line later rfl hrun
    obtain ⟨report, text, hreport, htext, hshown⟩ := converse_run hrun hanswer
    unfold request at hreport
    rw [source, hrecords.buffer, hrecords.cap] at hreport
    rw [source, hrecords.buffer] at htext
    rw [Clock.later_later, Clock.later_zero] at hshown
    exact ⟨report, text, hreport, htext, hshown⟩
  · intro before' hperm hothers
    obtain ⟨hsame, hsteady'⟩ := after_of_reordered cap debug clocks hperm hothers
    have hstay' : ∀ line ∈ before', trimmed line ≠ ":quit" :=
      fun line hline => hstay line (hperm.mem_iff.mp hline)
    refine ⟨hsame, fun later => ?_⟩
    rw [converse_append hstay' (hsteady' hsteady) later, hsame, hperm.length_eq]

/-- What a session reads before it runs its buffer: breakpoints come and go, and
some commands are refused. -/
def Sample.history : List String :=
  ["likho 7", ":clear", "maano x = 1", ":break 2", "", " :tokens", ":break 3", "  likho x + 1",
    ":break three", ":ast", ":break 2", ":nothing"]

/-- Every line of input finds a clock that is set anew. -/
def Sample.clocks : Nat → Clock := fun _ => .everySecond

theorem converse_records_sample :
    (∀ line ∈ Sample.history, trimmed line ≠ ":quit") ∧
    ((start 5 false).converse Sample.clocks (Sample.history ++ [":run", ":quit"])).failure = none ∧
    ∃ s : Session, s.buffer = ["maano x = 1", "", "  likho x + 1"] ∧
      (∀ n, n ∈ s.breakpoints ↔ n = 3) ∧
      ∃ report text, report.text (some s.source) = .ok text ∧
        Request.report ⟨s.source, Source.unnamed, s.breakpoints, 5⟩ = .ok report ∧
        s.converse (Clock.later Sample.clocks 12) [":run", ":quit"] =
          (s.converse (Clock.later Sample.clocks 13) [":quit"]).after
            (s.prompt ++ Text.printed
              (s.narrate (Narration.ofRequest s.request .everySecond) ++ [text])) := by
  have hstay : ∀ line ∈ Sample.history, trimmed line ≠ ":quit" := by decide +kernel
  have hanswer : ((start 5 false).converse Sample.clocks (Sample.history ++ [":run", ":quit"])).failure =
      none := by
    decide +kernel
  obtain ⟨s, hrecords, _, _, hruns, _⟩ :=
    converse_records 5 false Sample.clocks Sample.history [":run", ":quit"] hstay hanswer
  have hentered : enteredLines Sample.history = ["maano x = 1", "", "  likho x + 1"] := by
    decide +kernel
  have htoggled : Sample.history.filterMap breakpoint? = [2, 3, 2] := by decide +kernel
  have hbreakpoints (n : Int) : n ∈ s.breakpoints ↔ n = 3 := by
    rw [hrecords.breakpoints n, toggleCount, htoggled]
    by_cases hthree : n = 3
    · subst hthree
      decide
    · by_cases htwo : n = 2
      · subst htwo
        decide
      · have hnone : [2, 3, 2].count n = 0 := List.count_eq_zero.mpr (by simp [htwo, hthree])
        rw [hnone]
        exact ⟨nofun, fun h => absurd h hthree⟩
  obtain ⟨report, text, hreport, htext, hshown⟩ :=
    hruns ":run" [":quit"] rfl (by decide +kernel)
  rw [← hrecords.buffer] at hreport htext
  exact ⟨hstay, hanswer, s, hrecords.buffer.trans hentered, hbreakpoints, report, text, htext,
    hreport, hshown⟩

end Session

end Crafter
