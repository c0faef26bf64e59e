import OpLang.Cli.Arguments
import OpLang.Cli.LogFilter

/-! # The conventions of the program

Arguments are read as flags and options, and questions for help or for the version are answered at
once. The log shows what its filter lets through, one line for each record. A failure is worded with
what lies behind it.
-/

namespace OpLang

/-- The wording of a failure. -/
def Failure.text (failure : Failure) : String :=
  "Error: " ++ failure.message ++
    (match failure.cause? with
      | some cause => "\n\nCaused by:\n    " ++ cause
      | none => "") ++ "\n"

namespace Cli

/-- The answer to a question for the version. -/
def versionText : String := "mana 0.1.0\n"

/-- The lines that answer a question for help. -/
def helpLines : List String := [
    "mana 0.1.0",
    "tokenizer and precedence-climbing parser for the mana expression language",
    "",
    "USAGE:",
    "    mana [FLAGS] [OPTIONS] [--] [INPUT]",
    "",
    "FLAGS:",
    "        --dump-ast         print every parsed unit once input ends",
    "    -h, --help             Prints help information",
    "    -q, --quiet            don't print the prompt",
    "        --strict-params    reject prototypes that repeat a parameter name",
    "        --tokens           print the token stream instead of parsing",
    "    -V, --version          Prints version information",
    "    -v                     increase log verbosity",
    "",
    "OPTIONS:",
    "    -p, --precedence <OP=N>...    set the precedence of a binary operator",
    "",
    "ARGS:",
    "    <INPUT>    source file to parse, stdin if omitted"]

/-- The answer to a question for help. -/
def helpText : String := String.join (helpLines.map (· ++ "\n"))

/-- The conclusion of a run whose arguments are not followed. -/
def stopped : Stop → Conclusion
  | .help => ⟨0, helpText, ""⟩
  | .version => ⟨0, versionText, ""⟩
  | .fault fault => ⟨1, "", "error: " ++ fault.text ++ "\n"⟩

/-- The filter at a threshold, with complaints about the wishes that cannot be read. -/
def logFilter (threshold : Threshold) (logSpec? : Option String) : LogFilter × List String :=
  match logSpec? with
  | none => (.ofThreshold threshold, [])
  | some spec => (LogFilter.ofThreshold threshold).addSpec spec

/-- The line of a complaint about the log. -/
def warningLine (complaint : String) : String := "warning: " ++ complaint ++ ", ignoring it\n"

/-- The line of a log record; the name of its level takes five columns. -/
def recordLine (event : Event) : String :=
  "[" ++ String.ofList (event.level.name.toList.rightpad 5 ' ') ++ " " ++ event.target ++ "] " ++
    event.message ++ "\n"

/-- The line of a record that the filter shows, else nothing. -/
def shownLine (filter : LogFilter) (event : Event) : String :=
  if filter.shows event then recordLine event else ""

/-- The view of the log through its filter. -/
def logView (threshold : Threshold) (logSpec? : Option String) : LogView :=
  let (filter, complaints) := logFilter threshold logSpec?
  ⟨String.join (complaints.map warningLine), shownLine filter⟩

end Cli

/-- The conventions that the program keeps to. -/
def Conventions.standard : Conventions where
  options arguments := (Arguments.parse arguments).mapError Cli.stopped
  log := Cli.logView
  report := Failure.text

/-- Run the program. -/
def Cli.run (environment : Environment) : Conclusion := Conventions.standard.run environment

end OpLang
