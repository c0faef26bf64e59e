import OpLang.Cli.Precedence
import OpLang.Lexer
import OpLang.Session.Basic
import OpLang.Source.LineReader

/-! # The program as a function

A run of the program is determined by its arguments, the standard input, the files it may open and
the wishes for its log. Its conclusion is an exit code with what is written to the standard output
and to the standard error. The answers of a session and the log records share the standard error, in
the order in which they arise.

How arguments are read, which log records are shown and how failures are worded is not for the
program to decide. These are its conventions, and the program is a function for any of them.
-/

namespace OpLang

/-- What the user asked for. -/
structure Options where
  input? : Option String
  quiet : Bool
  dumpItems : Bool
  listTokens : Bool
  strictParameters : Bool
  verbosity : Nat
  precedences : List String
deriving DecidableEq, Repr

/-- What a run of the program can see. -/
structure Environment where
  arguments : List String
  /-- The answers that reading the standard input will give. -/
  input : List Fill
  /-- The answers that reading a file will give, or why it cannot be opened. -/
  openFile : String → Except String (List Fill)
  logSpec? : Option String

/-- What a run of the program leaves behind. -/
structure Conclusion where
  code : Nat
  output : String
  errors : String
deriving DecidableEq, Repr

/-- A failure that ends the program, with what lies behind it. -/
structure Failure where
  message : String
  cause? : Option String
deriving DecidableEq, Repr

namespace Failure

/-- The failure of precedences that cannot be read. -/
def ofPrecedence (fault : PrecedenceFault) : Failure := ⟨fault.text, fault.cause?⟩

/-- The failure of a file that cannot be opened. -/
def ofFile (path reason : String) : Failure := ⟨"failed to open " ++ path, some reason⟩

/-- The failure of an input with errors. -/
def ofErrors (count : Nat) : Failure := ⟨toString count ++ " parse error(s)", none⟩

/-- The failure of a session whose output could not be written. -/
def ofSink (fault : SinkFault) : Failure := ⟨fault.text, none⟩

end Failure

/-- What the standard error shows of the log. -/
structure LogView where
  /-- What is said about wishes that cannot be read. -/
  complaints : String
  /-- What is said about an event, which is nothing if it is not to be shown. -/
  line : Event → String

/-- What the program leaves to others. -/
structure Conventions where
  /-- The options that arguments ask for, or the conclusion that they lead to at once. -/
  options : List String → Except Conclusion Options
  /-- The view of the log at a threshold, with the wishes for it. -/
  log : Threshold → Option String → LogView
  /-- What the standard error says about a failure. -/
  report : Failure → String

namespace Cli

/-- The threshold that a number of verbosity flags asks for. -/
def thresholdOf (verbosity : Nat) : Threshold :=
  match verbosity with
  | 0 => some .warn
  | 1 => some .info
  | 2 => some .debug
  | _ => some .trace

/-- What a transcript looks like on the standard error. -/
def shownTranscript {τ : Type} (log : LogView) (transcript : List (Entry τ)) : String :=
  String.join <| transcript.map fun
    | .event event => log.line event
    | .output text => text
    | .flush _ => ""

/-- The settings that options ask for. -/
def settings (options : Options) : Except PrecedenceFault Settings :=
  (installSpecs .standard options.precedences).map fun operators =>
    ⟨operators, !options.strictParameters⟩

/-- The line of a token in a listing. -/
def tokenLine (found : LocatedToken) : String :=
  found.location.text ++ "\t" ++ found.token.text ++ "\n"

/-- List the tokens of an input. -/
def listTokens (log : LogView) (reader : LineReader) : Conclusion :=
  let (found, lexer) := TokenSource.drain #[] (Lexer.ofSource reader)
  let failed := ((TokenSource.failure? lexer).map Event.readFailed).toList
  ⟨0, String.join (found.toList.map tokenLine), String.join (failed.map log.line)⟩

/-- The session over an input. It prompts when the input is the standard one, unless that is not
wanted. -/
def session (options : Options) (settings : Settings) (reader : LineReader) :
    Session (Lexer LineReader) :=
  { Session.ofParser (.ofTokens (.ofSource reader) settings) with
    interactive := options.input?.isNone && !options.quiet }

/-- The input of a run. -/
def inputOf (environment : Environment) (options : Options) : Except Failure LineReader :=
  match options.input? with
  | none => .ok (.ofScript environment.input)
  | some path =>
    match environment.openFile path with
    | .ok script => .ok (.ofScript script)
    | .error reason => .error (.ofFile path reason)

end Cli

namespace Conventions

variable (conventions : Conventions)

/-- What is left to say when a session has ended. Errors in a file are a failure of the program. -/
def conclude (options : Options) (result : Except SinkFault Report) (shown : String) :
    Conclusion :=
  match result with
  | .error fault => ⟨1, "", shown ++ conventions.report (.ofSink fault)⟩
  | .ok report =>
    let dump :=
      if options.dumpItems then
        String.join (report.items.toList.map fun item => item.text ++ "\n")
      else ""
    if options.input?.isSome && 0 < report.errors.size then
      ⟨1, dump, shown ++ conventions.report (.ofErrors report.errors.size)⟩
    else ⟨0, dump, shown⟩

/-- Parse an input and answer it. -/
def parseInput (options : Options) (log : LogView) (settings : Settings) (reader : LineReader) :
    Conclusion :=
  let (result, session) := (Cli.session options settings reader).run .unlimited
  conventions.conclude options result (Cli.shownTranscript log session.transcript.toList)

/-- Follow options. Settings are made before the input is opened. -/
def follow (environment : Environment) (options : Options) (log : LogView) : Conclusion :=
  match Cli.settings options with
  | .error fault => ⟨1, "", conventions.report (.ofPrecedence fault)⟩
  | .ok settings =>
    match Cli.inputOf environment options with
    | .error failure => ⟨1, "", conventions.report failure⟩
    | .ok reader =>
      if options.listTokens then Cli.listTokens log reader
      else conventions.parseInput options log settings reader

/-- Run the program. -/
def run (environment : Environment) : Conclusion :=
  match conventions.options environment.arguments with
  | .error conclusion => conclusion
  | .ok options =>
    let log := conventions.log (Cli.thresholdOf options.verbosity) environment.logSpec?
    let conclusion := conventions.follow environment options log
    { conclusion with errors := log.complaints ++ conclusion.errors }

end Conventions

end OpLang
