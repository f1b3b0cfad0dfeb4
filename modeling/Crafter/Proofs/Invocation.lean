import Crafter.CommandLine.Command
import Crafter.Proofs.Arguments
import Crafter.Proofs.Encoding
import Crafter.Proofs.FileName
import Crafter.Proofs.History
import Crafter.Proofs.Reported

/-! A call on a script and a request for the text of the script come to the same: the call
prints the report, or the warnings in it, and its exit code tells the status. -/
namespace Crafter

theorem Breakpoints.mem_insert (b : Breakpoints) (line other : Int) :
    other ∈ b.insert line ↔ other = line ∨ other ∈ b := by
  unfold insert
  split
  · next hline =>
    refine (or_iff_right_of_imp ?_).symm
    rintro rfl
    exact hline
  · next hline =>
    rw [mem_toggle]
    split
    · next heq => exact iff_of_true hline (Or.inl heq)
    · next hne => exact (or_iff_right hne).symm

theorem Breakpoints.mem_foldl_insert (lines : List Int) (b : Breakpoints) (line : Int) :
    line ∈ lines.foldl insert b ↔ line ∈ lines ∨ line ∈ b := by
  induction lines generalizing b with
  | nil => exact (or_iff_right List.not_mem_nil).symm
  | cons l lines ih => rw [List.foldl_cons, ih, mem_insert, List.mem_cons, or_left_comm, or_assoc]

theorem Breakpoints.mem_ofList (lines : List Int) (line : Int) :
    line ∈ ofList lines ↔ line ∈ lines :=
  (mem_foldl_insert lines empty line).trans (or_iff_left List.not_mem_nil)

namespace Program
variable {file source : String}

theorem ofSource_of_scan_error {failure : Failure}
    (hscan : Source.scan file source = .error failure) : ofSource file source = .error failure := by
  unfold ofSource
  rw [hscan]
  rfl

theorem ofSource_of_parse_error {tokens : List Token} {e : SyntaxError}
    (hscan : Source.scan file source = .ok tokens) (hparse : ofBalancedTokens tokens = .error e) :
    ofSource file source = .error (.malformed (e.within source)) := by
  unfold ofSource ofTokensOf
  rw [hscan]
  dsimp only [bind, Except.bind]
  rw [hparse]

end Program

/-- A request without an answer fails on the scan. -/
theorem Request.scan_of_report_error {r : Request} (hcap : 1 ≤ r.cap) {failure : Failure}
    (h : r.report = .error failure) : Source.scan r.file r.source = .error failure := by
  cases hscan : Source.scan r.file r.source with
  | ok tokens =>
    obtain ⟨report, hreport, -⟩ := r.report_of_tokens hcap hscan
    cases hreport.symm.trans h
  | error other =>
    unfold report at h
    rw [hscan] at h
    cases other with
    | malformed e => cases h
    | _ => exact congrArg Except.error (Except.error.inj h)

namespace CommandLine

/-- The call ends as a request with that answer does. A call that lints prints the warnings
of the report in place of the report itself. -/
structure Ending.Tells (ending : Ending) (source : String) (lints : Bool)
    (answer : Except Failure Report) : Prop where
  failed : ∀ failure, answer = .error failure →
    (∃ digits, Request.Overlong source digits ∧ failure = .numberTooLong digits) ∧
      ending = ⟨"", "", .error failure⟩
  ran : lints = false → ∀ report, answer = .ok report →
    ∃ shown, report.text (some source) = .ok shown ∧
      ending = ⟨shown ++ "\n", "",
        .ok (if report.status = .syntaxError ∨ report.status = .runtimeError then 1 else 0)⟩
  linted : lints = true → ∀ report, answer = .ok report → report.status ≠ .syntaxError →
    ending = ⟨Text.printed (if report.warnings = [] then ["No lint warnings"]
      else report.warnings.map (·.oneLine)), "", .ok 0⟩
  refused : lints = true → ∀ report, answer = .ok report → report.status = .syntaxError →
    ending.exit = .ok 1

theorem exitCode_eq (status : Status) :
    exitCode status = if status = .syntaxError ∨ status = .runtimeError then 1 else 0 := by
  cases status <;> rfl

theorem printed_singleton (line : String) : Text.printed [line] = line ++ "\n" := by
  unfold Text.printed String.join
  rw [List.map_singleton, List.foldl_cons, List.foldl_nil, String.empty_append]

theorem warningLines_eq (warnings : List Diagnostic) : Session.warningLines warnings =
    if warnings = [] then ["No lint warnings"] else warnings.map (·.oneLine) := by
  cases warnings <;> rfl

namespace Ending.Tells
variable {source : String} {lints : Bool}

theorem of_error {digits : Nat} (h : Request.Overlong source digits) :
    Tells ⟨"", "", .error (.numberTooLong digits)⟩ source lints
      (.error (.numberTooLong digits)) where
  failed _ hfailure := by
    cases hfailure
    exact ⟨⟨digits, h, rfl⟩, rfl⟩
  ran _ _ hreport := nomatch hreport
  linted _ _ hreport := nomatch hreport
  refused _ _ hreport := nomatch hreport

theorem of_ran {report : Report} {shown : String}
    (h : report.text (some source) = .ok shown) :
    Tells (.printed [shown] (exitCode report.status)) source false (.ok report) where
  failed _ hfailure := nomatch hfailure
  ran _ _ hreport := by
    cases hreport
    refine ⟨shown, h, ?_⟩
    rw [printed, printed_singleton, exitCode_eq]
  linted hlints := nomatch hlints
  refused hlints := nomatch hlints

theorem of_linted {report : Report} (h : report.status ≠ .syntaxError) :
    Tells (.printed (Session.warningLines report.warnings) 0) source true (.ok report) where
  failed _ hfailure := nomatch hfailure
  ran hlints := nomatch hlints
  linted _ _ hreport _ := by
    cases hreport
    rw [printed, warningLines_eq]
  refused _ _ hreport hstatus := by
    cases hreport
    exact absurd hstatus h

theorem of_refused {ending : Ending} {report : Report} (hexit : ending.exit = .ok 1)
    (h : report.status = .syntaxError) : ending.Tells source true (.ok report) where
  failed _ hfailure := nomatch hfailure
  ran hlints := nomatch hlints
  linted _ _ hreport hstatus := by
    cases hreport
    exact absurd h hstatus
  refused _ _ _ _ := hexit

/-- Under another file name the answer is told in the same way. -/
theorem inFile {ending : Ending} {answer : Except Failure Report}
    (h : ending.Tells source lints answer) (file : String) :
    ending.Tells source lints (answer.map (Report.inFile file)) := by
  cases answer with
  | error failure =>
    obtain ⟨⟨digits, hlong, rfl⟩, rfl⟩ := h.failed failure rfl
    exact of_error hlong
  | ok report =>
    refine ⟨fun _ hfailure => (nomatch hfailure), ?_, ?_, ?_⟩
    · intro hlints _ hreport
      cases hreport
      exact h.ran hlints report rfl
    · intro hlints _ hreport
      cases hreport
      exact h.linted hlints report rfl
    · intro hlints _ hreport
      cases hreport
      exact h.refused hlints report rfl

end Ending.Tells

theorem runScript_tells {o : Options} (hdebug : o.debug = false) (hcap : 1 ≤ o.capOrZero)
    (clock : Clock) (breakpoints : Breakpoints) (path source : String) :
    (runScript o clock breakpoints path source).Tells source false
      (Request.report ⟨source, path, breakpoints, o.capOrZero⟩) := by
  obtain ⟨digits, hlong, hreport⟩ | ⟨-, report, hreport, hfits⟩ :=
    Request.report_cases ⟨source, path, breakpoints, o.capOrZero⟩ hcap
  · have hending : runScript o clock breakpoints path source =
        ⟨"", "", .error (.numberTooLong digits)⟩ := by
      unfold runScript
      dsimp only
      rw [hreport, hdebug]
      rfl
    rw [hreport, hending]
    exact .of_error hlong
  · obtain ⟨shown, hshown⟩ := report.exists_text hfits (some source)
    have hboth : (do
        let r ← Request.report ⟨source, path, breakpoints, o.capOrZero⟩
        return (r, ← r.text (some source))) = .ok (report, shown) := by
      rw [hreport]
      change (report.text (some source) >>= _) = _
      rw [hshown]
      rfl
    have hending : runScript o clock breakpoints path source =
        .printed [shown] (exitCode report.status) := by
      unfold runScript
      dsimp only
      rw [hboth, hdebug]
      rfl
    rw [hreport, hending]
    exact .of_ran hshown

/-- The warnings that are shown of a text are those of its report; a text that is no program has
no warnings to show, and its report says so. -/
theorem showing_warnings_tells {cap : Int} (hcap : 1 ≤ cap) (breakpoints : Breakpoints)
    (path source : String) :
    (showing path [] ((Program.ofSource path source).map fun (tokens, p) =>
        Session.warningLines (Lint.warnings tokens p))).Tells source true
      (Request.report ⟨source, path, breakpoints, cap⟩) := by
  obtain ⟨digits, hlong, hreport⟩ | ⟨-, report, hreport, -⟩ :=
    Request.report_cases ⟨source, path, breakpoints, cap⟩ hcap
  · have hscan := Request.scan_of_report_error hcap hreport
    rw [hreport, Program.ofSource_of_scan_error hscan]
    exact .of_error hlong
  rw [hreport]
  obtain ⟨e, hscan, rfl⟩ | ⟨tokens, hscan, ⟨e, hparse, rfl⟩ | ⟨p, o, hp, hrun, rfl⟩⟩ :=
    Request.eq_of_report hreport
  · rw [Program.ofSource_of_scan_error hscan]
    exact .of_refused rfl rfl
  · rw [Program.ofSource_of_parse_error hscan hparse]
    exact .of_refused rfl rfl
  · have hstatus : (Report.ofOutcome tokens p o).status ≠ .syntaxError :=
      (Request.run_placed hp hrun).1
    rw [(Program.ofSource_eq_ok_iff path source tokens p).mpr ⟨hscan, hp⟩]
    exact .of_linted hstatus

theorem mapM_id_map_some (lines : List Int) : (lines.map some).mapM id = some lines := by
  rw [List.mapM_map]
  exact List.mapM_pure.trans (congrArg some (List.map_id lines))

theorem readScript_toUTF8 {files : Files} {path text : String}
    (h : files.target path = .file text.toUTF8.data.toList) :
    readScript files path = .ok (Text.withLineFeeds text) := by
  have htext : textOfBytes text.toUTF8.data.toList = .ok (Text.withLineFeeds text) := by
    unfold textOfBytes
    rw [Text.Utf8.decode_toUTF8, Text.withLineFeeds, ← Text.unifyLineEnds_eq]
    rfl
  unfold readScript
  rw [h]
  dsimp only
  rw [htext]

theorem Options.path?_asked {path : String} (hpath : path ≠ "") (wishes : List Wish) :
    (asked path wishes).path? = some path := by
  change (some path).filter _ = some path
  rw [Option.filter_some, if_pos (decide_eq_true hpath)]

theorem perform_asked {files : Files} {path text : String} (hpath : path ≠ "")
    (hfound : files.found path = .file text.toUTF8.data.toList)
    (htarget : files.target path = .file text.toUTF8.data.toList) (stdin : String)
    (clocks : Nat → Clock) (wishes : List Wish) :
    perform files clocks stdin (.asked path wishes) =
      treatScript (.asked path wishes) (clocks 0) (.ofList (linesOf wishes)) path
        (Text.withLineFeeds text) := by
  unfold perform
  rw [Options.path?_asked hpath]
  dsimp only
  rw [hfound]
  dsimp only
  unfold performScript
  have hlines : (Options.asked path wishes).breakpoints.mapM id = some (linesOf wishes) :=
    mapM_id_map_some _
  rw [readScript_toUTF8 htarget, hlines]
  rfl

theorem treatScript_asked_tells (wishes : List Wish) (clock : Clock) (breakpoints : Breakpoints)
    (path source : String) :
    (treatScript (.asked path wishes) clock breakpoints path source).Tells source
      (wishes.any Wish.isLint) (Request.report ⟨source, path, breakpoints, capOf wishes⟩) := by
  have hcap := one_le_capOf wishes
  cases hlints : wishes.any Wish.isLint with
  | false =>
    have htreat : treatScript (.asked path wishes) clock breakpoints path source =
        runScript (.asked path wishes) clock breakpoints path source :=
      if_neg (Bool.eq_false_iff.mp hlints)
    rw [htreat]
    exact runScript_tells (o := .asked path wishes) rfl hcap clock breakpoints path source
  | true =>
    have htreat : treatScript (.asked path wishes) clock breakpoints path source =
        showing path [] ((Program.ofSource path source).map fun (tokens, p) =>
          Session.warningLines (Lint.warnings tokens p)) := if_pos hlints
    rw [htreat]
    exact showing_warnings_tells hcap breakpoints path source

/-- A call on a file ends as a request for the text of the file does, with the breakpoints
and the cap that were asked for, whatever their order. -/
theorem call_tells {files : Files} {path text : String} (hname : path ≠ "")
    (hpath : ∀ cs, path.toList ≠ '-' :: cs)
    (hfound : files.found path = .file text.toUTF8.data.toList)
    (htarget : files.target path = .file text.toUTF8.data.toList)
    (before after : List Wish) {breakpoints : Breakpoints}
    (hlines : ∀ line, line ∈ breakpoints ↔ line ∈ linesOf (before ++ after))
    (stdin file : String) (clocks : Nat → Clock) :
    (call files stdin (before.flatMap Wish.arguments ++ path :: after.flatMap Wish.arguments)
        clocks).Tells
      (Text.withLineFeeds text) ((before ++ after).any Wish.isLint)
      (Request.report ⟨Text.withLineFeeds text, file, breakpoints, capOf (before ++ after)⟩) := by
  have hbreakpoints : breakpoints = .ofList (linesOf (before ++ after)) :=
    Breakpoints.eq_of_mem_iff fun line => (hlines line).trans (Breakpoints.mem_ofList _ line).symm
  have hcall : call files stdin
      (before.flatMap Wish.arguments ++ path :: after.flatMap Wish.arguments) clocks =
      treatScript (.asked path (before ++ after)) (clocks 0) breakpoints path
        (Text.withLineFeeds text) :=
    calc call files stdin (before.flatMap Wish.arguments ++ path :: after.flatMap Wish.arguments)
          clocks
      _ = perform files clocks stdin (.asked path (before ++ after)) := by
        unfold call
        rw [ofArguments_asked hpath]
      _ = treatScript (.asked path (before ++ after)) (clocks 0) breakpoints path
            (Text.withLineFeeds text) := by
        rw [hbreakpoints]
        exact perform_asked hname hfound htarget stdin clocks _
  rw [hcall]
  -- the call gives its request the path for a file name, and the name changes nothing
  have htells := (treatScript_asked_tells (before ++ after) (clocks 0) breakpoints path
    (Text.withLineFeeds text)).inFile file
  rwa [← Request.report_inFile] at htells

/-- A script with all three kinds of line ends. -/
def mixedScript : String := "likho \"a\"\r\nlikho \"b\"\rlikho \"c\"\n"

def mixedFiles : Files :=
  (Tree.ofPaths [] [("letters", mixedScript.toUTF8.data.toList)]).toFiles

def numeralTwo : PositiveNumeral := ⟨"2", 2, by decide +kernel, by decide⟩

def numeralThree : PositiveNumeral := ⟨"+3", 3, by decide +kernel, by decide⟩

/-- Of two breakpoints, given out of order around a cap, the run comes to the first one. -/
theorem call_tells_mixed :
    mixedFiles.found "letters" = .file mixedScript.toUTF8.data.toList ∧
    (∀ line, line ∈ Breakpoints.ofList [2, 3] ↔ line ∈ [3, 2]) ∧
    (call mixedFiles "" ["-b", "+3", "letters", "--max-iterations", "2", "-b", "2"]).Tells
      (Text.withLineFeeds mixedScript) false
      (Request.report ⟨Text.withLineFeeds mixedScript, Source.unnamed, .ofList [2, 3], 2⟩) ∧
    (call mixedFiles "" ["-b", "+3", "letters", "--max-iterations", "2", "-b", "2"]).stdout =
      "Breakpoint\nExecution paused at line 2, col 1.\n" := by
  have hfound : mixedFiles.found "letters" = .file mixedScript.toUTF8.data.toList := by
    decide +kernel
  have htarget : mixedFiles.target "letters" = .file mixedScript.toUTF8.data.toList := by
    decide +kernel
  have hpath : ∀ cs, "letters".toList ≠ '-' :: cs := by
    intro cs h
    cases congrArg List.head? h
  have hlines (line : Int) : line ∈ Breakpoints.ofList [2, 3] ↔ line ∈ [3, 2] := by
    rw [Breakpoints.mem_ofList, List.mem_pair, List.mem_pair, or_comm]
  refine ⟨hfound, hlines, ?_, by decide +kernel⟩
  exact call_tells (by decide) hpath hfound htarget [.line numeralThree]
    [.cap numeralTwo, .line numeralTwo] hlines "" Source.unnamed fun _ => .everySecond

end CommandLine

end Crafter
