import OpLang.Cli.Run
import OpLang.Proofs.Item
import OpLang.Proofs.Session.Records
import OpLang.Proofs.Session.Soundness

/-! # Files and the standard input

A session that does not prompt answers the same wherever its input comes from and however that is
cut into answers, and with usual conventions nothing of the log is shown at the standard threshold
unless the reading fails. So a file and the standard input lead to the same output, and what is
written to the standard error and the exit code differ only in the failure that errors in a file
are.
-/

namespace OpLang

/-- A parser over a source that hands out a text has the results of the text. -/
theorem Parser.sameResults_ofSource {σ : Type} [CharSource σ] {source : σ} {text : String}
    (settings : Settings) (chars : CharSource.ahead source = text.toList) :
    (Parser.ofTokens (Lexer.ofSource source) settings).advance.SameResults
      (parserOfText settings text).advance := by
  obtain ⟨segments, finish, cut⟩ := exists_segmented text.toList
  have holds := holds_ofSource settings chars cut
  have others := holds_ofSource settings (CharSource.ahead_list text.toList) cut
  have settles : (Parser.ofTokens (Lexer.ofSource source) settings).advance.Settles :=
    ⟨_, _, holds⟩
  refine ⟨settles, settles_parserOfText settings text, results_congr settles ?_ rfl⟩
  exact funext fun call => (others.stream call).trans (holds.stream call).symm

/-- What is usual about conventions, whatever arguments they understand. -/
structure Conventions.Usual (conventions : Conventions) : Prop where
  /-- Without wishes for the log there is nothing to complain about. -/
  uncomplaining : ∀ threshold, (conventions.log threshold none).complaints = ""
  /-- Without wishes for the log, what is less important than the threshold is not shown. -/
  hides : ∀ threshold event, Threshold.admits threshold event.level = false →
    (conventions.log threshold none).line event = ""
  /-- A failure with nothing behind it is reported by its message. -/
  words : ∀ message, conventions.report ⟨message, none⟩ = "Error: " ++ message ++ "\n"

/-- The conventions of the program are usual. -/
theorem Conventions.usual_standard : Conventions.standard.Usual where
  uncomplaining _ := rfl
  hides threshold event hidden := by
    have kept : (LogFilter.ofThreshold threshold).shows event = false := by
      rw [LogFilter.shows]
      exact Bool.and_eq_false_iff.mpr (.inl hidden)
    simp [standard, Cli.logView, Cli.logFilter, Cli.shownLine, kept]
  words message := by
    apply String.toList_inj.mp
    simp [standard, Failure.text]

namespace Cli

/-- The run parses a file that holds these bytes, and asks for nothing to be logged. -/
inductive ParsesFile (conventions : Conventions) (environment : Environment) (options : Options)
    (bytes : List UInt8) : Prop where
  | mk {path : String} {quiet : Bool} {script : List Fill}
    (parsed : conventions.options environment.arguments =
      .ok { options with input? := some path, quiet })
    (opened : environment.openFile path = .ok script) (supplies : Fill.Supplies script bytes)
    (unset : environment.logSpec? = none)

/-- The run parses a standard input that delivers these bytes, without prompts, and asks for nothing
to be logged. -/
inductive ParsesInput (conventions : Conventions) (environment : Environment) (options : Options)
    (bytes : List UInt8) : Prop where
  | mk (parsed : conventions.options environment.arguments =
      .ok { options with input? := none, quiet := true })
    (supplies : Fill.Supplies environment.input bytes) (unset : environment.logSpec? = none)

/-- How a run on a file and one on the standard input conclude when this is reported. -/
structure Parallel (dumpItems : Bool) (report : Report) (file input : Conclusion) : Prop where
  same : file.output = input.output
  dump : input.output =
    if dumpItems then String.join (report.items.toList.map fun item => item.text ++ "\n") else ""
  lines : ∀ item ∈ report.items, OneLine item.text
  errors : file.errors = input.errors ++
    if 0 < report.errors.size then
      "Error: " ++ toString report.errors.size ++ " parse error(s)\n"
    else ""
  inputCode : input.code = 0
  fileCode : file.code = if 0 < report.errors.size then 1 else 0

variable {conventions : Conventions} {file input environment : Environment} {options : Options}
  {settings : Settings} {bytes : List UInt8} {script : List Fill} {log : LogView} {τ : Type}

/-! ### What is shown of the log -/

/-- A view without ordinary events shows only the output of a session without failures. -/
theorem shownTranscript_eq {transcript : List (Entry τ)}
    (hides : ∀ event : Event, event.Ordinary → log.line event = "")
    (ordinary : ∀ event, .event event ∈ transcript → event.Ordinary) :
    shownTranscript log transcript = Transcript.output transcript := by
  induction transcript with
  | nil => rfl
  | cons entry transcript ih =>
    have others := ih fun event member => ordinary event (List.mem_cons_of_mem entry member)
    rw [shownTranscript, List.map_cons, String.join_cons]
    rw [shownTranscript] at others
    rw [others]
    cases entry with
    | event event =>
      have hidden := hides event (ordinary event List.mem_cons_self)
      exact (congrArg (· ++ _) hidden).trans String.empty_append
    | output text => exact String.join_cons.symm
    | flush tokens => exact String.empty_append

/-- Only failures to read are as important as the standard threshold. -/
theorem admits_eq_false {event : Event} (ordinary : event.Ordinary) :
    Threshold.admits (some .warn) event.level = false := by
  cases event with
  | readFailed message => exact absurd rfl (ordinary message)
  | tokenRead | parsing | parseFailed | finished => rfl

/-! ### Runs -/

/-- Without prompts, an input is answered like the text that it is read as. -/
theorem parseInput_eq (usual : conventions.Usual)
    (still : (options.input?.isNone && !options.quiet) = false)
    (supplies : Fill.Supplies script bytes) :
    let ran := (Session.ofText settings (Utf8.text bytes) false).run .unlimited
    conventions.parseInput options (conventions.log (some .warn) none) settings
      (.ofScript script) = conventions.conclude options ran.1 ran.2.shown := by
  intro ran
  have same := Parser.sameResults_ofSource settings (LineReader.ahead_of_supplies supplies)
  have begun : (session options settings (.ofScript script)).parser.Calm :=
    ⟨LineReader.sound_ofScript supplies, by simp [session, Session.ofParser, Parser.ofTokens]⟩
  have calm := Session.Calm.run .unlimited begun
  have shows : Doing.ShowsAs (fun _ _ => True)
      ((session options settings (.ofScript script)).run .unlimited) ran :=
    Session.run_showsAs .unlimited still.symm same
  have hides (event : Event) (ordinary : event.Ordinary) :=
    usual.hides (some .warn) event (admits_eq_false ordinary)
  have shown := shownTranscript_eq hides fun event member =>
    calm.transcript event (Array.mem_toList_iff.mp member)
  rw [shows.eq.1, shows.eq.2]
  exact congrArg (conventions.conclude options _) shown

/-- A run that parses an input does nothing else. -/
theorem run_eq_parseInput (usual : conventions.Usual)
    (parsed : conventions.options environment.arguments = .ok options)
    (plain : options.listTokens = false) (silent : options.verbosity = 0)
    (unset : environment.logSpec? = none) (settled : Cli.settings options = .ok settings)
    (input : inputOf environment options = .ok (.ofScript script)) :
    conventions.run environment = conventions.parseInput options
      (conventions.log (some .warn) none) settings (.ofScript script) := by
  simp only [Conventions.run, parsed, silent, unset, thresholdOf, Conventions.follow, settled,
    input, plain, usual.uncomplaining]
  exact congrArg (Conclusion.mk _ _) String.empty_append

theorem inputOf_of_opened {path : String} (named : options.input? = some path)
    (opened : environment.openFile path = .ok script) :
    inputOf environment options = .ok (.ofScript script) := by
  simp only [inputOf, named, opened]

theorem report_ofErrors (usual : conventions.Usual) (count : Nat) :
    conventions.report (.ofErrors count) = "Error: " ++ toString count ++ " parse error(s)\n" := by
  rw [Failure.ofErrors, usual.words]
  apply String.toList_inj.mp
  simp

/-- Only errors in a file make a difference to the conclusion. -/
theorem parallel_conclude (usual : conventions.Usual) {report : Report} {path : String}
    {quiet : Bool} (shown : String) (lines : ∀ item ∈ report.items, OneLine item.text) :
    Parallel options.dumpItems report
      (conventions.conclude { options with input? := some path, quiet } (.ok report) shown)
      (conventions.conclude { options with input? := none, quiet := true } (.ok report) shown) where
  same := by
    simp only [Conventions.conclude]
    split <;> rfl
  dump := rfl
  lines := lines
  errors := by
    by_cases failed : 0 < report.errors.size <;>
      simp [Conventions.conclude, failed, report_ofErrors usual]
  inputCode := rfl
  fileCode := by
    by_cases failed : 0 < report.errors.size <;> simp [Conventions.conclude, failed]

/-- Files and the standard input are treated alike. What both report are the results of their text,
one after the other, as a session over it reports them; each item takes a line, and errors in a file
are a failure at the end. -/
theorem file_and_input_alike (usual : conventions.Usual) (plain : options.listTokens = false)
    (silent : options.verbosity = 0) (settled : Cli.settings options = .ok settings)
    (parsesFile : ParsesFile conventions file options bytes)
    (parsesInput : ParsesInput conventions input options bytes) :
    let report := Report.ofResults (resultsOfText settings (Utf8.text bytes))
    ∃ final, (Session.ofText settings (Utf8.text bytes) false).run .unlimited =
        (.ok report, final) ∧ (conventions.run input).errors = final.shown ∧
      Parallel options.dumpItems report (conventions.run file) (conventions.run input) := by
  intro report
  obtain ⟨parsed, opened, supplies, unset⟩ := parsesFile
  obtain ⟨parsed', supplies', unset'⟩ := parsesInput
  obtain ⟨_, _, final, _, _, _, ran, _⟩ := Session.run_ofText settings (Utf8.text bytes) false
  have fileRun := run_eq_parseInput usual parsed plain silent unset settled
    (inputOf_of_opened rfl opened)
  have inputRun := run_eq_parseInput usual parsed' plain silent unset' settled rfl
  rw [parseInput_eq usual rfl supplies, ran] at fileRun
  rw [parseInput_eq usual rfl supplies', ran] at inputRun
  have lines : ∀ item ∈ report.items, OneLine item.text := by
    intro item member
    obtain ⟨kind, handed⟩ := Session.handed_of_run .start ran item member
    exact handed.sound.oneLine
  refine ⟨final, ran, ?_, ?_⟩
  · rw [inputRun]
    rfl
  · rw [inputRun, fileRun]
    exact parallel_conclude usual final.shown lines

/-- The second definition has no name, which makes no difference to the dump. -/
theorem file_and_input_alike_of_unnamed :
    let bytes := "extern f(x y)\ndef 1 extern g()".toUTF8.toList
    let options : Options := ⟨none, true, true, false, true, 0, ["^=5"]⟩
    let file : Environment :=
      ⟨["--dump-ast", "f", "--strict-params", "-p^=5"], [], fun _ => .ok [.bytes bytes], none⟩
    let input : Environment := ⟨["--dump-ast", "-q", "--strict-params", "-p^=5"],
      [.interrupted, .bytes bytes], fun path => .error path, none⟩
    Conventions.standard.Usual ∧ ParsesFile .standard file options bytes ∧
      ParsesInput .standard input options bytes ∧ (run file).code = 1 ∧ (run input).code = 0 ∧
      (run file).output = (run input).output ∧
      (run input).output = "(extern f(x y))\n(extern g())\n" ∧
      (run file).errors = (run input).errors ++ "Error: 1 parse error(s)\n" := by
  intro bytes options file input
  have parsed : Conventions.standard.options file.arguments =
      .ok { options with input? := some "f", quiet := false } := by decide
  have parsed' : Conventions.standard.options input.arguments =
      .ok { options with input? := none, quiet := true } := by decide
  have parsesFile : ParsesFile .standard file options bytes :=
    .mk parsed rfl (Fill.supplies_whole bytes) rfl
  have parsesInput : ParsesInput .standard input options bytes :=
    .mk parsed' (.interrupted (Fill.supplies_whole bytes)) rfl
  let settings : Settings := ⟨Operators.standard.install '^' 5, false⟩
  have settled : Cli.settings options = .ok settings := rfl
  have usual := Conventions.usual_standard
  obtain ⟨final, ran, -, alike⟩ :=
    file_and_input_alike usual rfl rfl settled parsesFile parsesInput
  have parallel : Parallel true _ (run file) (run input) := alike
  have reported : (match ((Session.ofText settings (Utf8.text bytes) false).run .unlimited).1 with
      | .ok report => (report.items.toList.map (·.text), report.errors.size)
      | .error _ => ([], 0)) = (["(extern f(x y))", "(extern g())"], 1) := by decide +kernel
  rw [ran] at reported
  obtain ⟨items, errors⟩ := Prod.mk.inj reported
  refine ⟨usual, parsesFile, parsesInput, ?_, parallel.inputCode, parallel.same, ?_, ?_⟩
  · rw [parallel.fileCode, errors]
    rfl
  · have rows := congrArg (List.map (· ++ "\n")) items
    rw [List.map_map] at rows
    rw [parallel.dump]
    exact congrArg String.join rows
  · rw [parallel.errors, errors]
    rfl

end Cli

end OpLang
