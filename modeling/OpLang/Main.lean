import OpLang.Cli.Run

/-! # The command line program

The program reads its arguments, opens its input and writes what the library concludes. A session on
the standard input is led step by step, so that answers and prompts appear in time: a step that has
run out of lines is taken back and repeated with one more line.
-/

namespace OpLang.CommandLine

/-- The wording of a failed operation: what is wrong and the number of the error. -/
def reason : IO.Error → String
  | .noFileOrDirectory _ code details => details ++ " (os error " ++ toString code ++ ")"
  | .inappropriateType _ code details => details ++ " (os error " ++ toString code ++ ")"
  | .permissionDenied _ code details => details ++ " (os error " ++ toString code ++ ")"
  | .invalidArgument _ code details => details ++ " (os error " ++ toString code ++ ")"
  | .otherError code details => details ++ " (os error " ++ toString code ++ ")"
  | error => toString error

/-- The answers that reading a file gives, or why it cannot be opened. -/
def openFile (path : String) : IO (Except String (List Fill)) := do
  match ← (IO.FS.Handle.mk path .read).toBaseIO with
  | .error error => return .error (reason error)
  | .ok handle =>
    match ← handle.readBinToEnd.toBaseIO with
    | .ok bytes => return .ok [.bytes bytes.toList]
    | .error error => return .ok [.failed (reason error)]

/-- One line of the standard input, or what is left of it. -/
partial def awaitLine (input : IO.FS.Stream) (read : Array UInt8) : IO Fill := do
  match ← (input.read 1).toBaseIO with
  | .error error => return .failed (reason error)
  | .ok bytes =>
    match bytes.toList with
    | [] => return .bytes read.toList
    | byte :: _ =>
      if byte = newline then return .bytes (read.push byte).toList
      else awaitLine input (read.push byte)

/-- All of the standard input. -/
partial def readAll (input : IO.FS.Stream) (read : Array Fill) : IO (List Fill) := do
  match ← awaitLine input #[] with
  | .bytes [] => return read.toList
  | .failed message => return (read.push (.failed message)).toList
  | fill => readAll input (read.push fill)

/-- A session on the standard input. -/
abbrev LiveSession := Session (Lexer LineReader)

/-- Whether a session has asked for more lines than it was given. -/
def ranOut (session : LiveSession) : Bool := session.parser.tokens.source.status = .ended

/-- Give a session another line. -/
def feed (session : LiveSession) (fill : Fill) : LiveSession :=
  let lexer := session.parser.tokens
  { session with
    parser := { session.parser with tokens := { lexer with source := lexer.source.feed fill } } }

/-- Show what a session has to show, and forget it. -/
def reveal (log : LogView) (session : LiveSession) : IO LiveSession := do
  IO.eprint (Cli.shownTranscript log session.transcript.toList)
  (← IO.getStderr).flush
  return { session with transcript := #[] }

/-- Take a step of a session with as many lines as it needs. -/
partial def lead {α : Type} (input : IO.FS.Stream) (log : LogView)
    (step : LiveSession → Doing (Lexer LineReader) α) (session : LiveSession) :
    IO (Except SinkFault α × LiveSession) := do
  let (result, next) := step session
  if ranOut next && !ranOut session then
    match ← awaitLine input #[] with
    | .bytes [] => return (result, ← reveal log next)
    | fill => lead input log step (feed session fill)
  else return (result, ← reveal log next)

/-- Lead a session to the end of its input. -/
partial def leadTurns (input : IO.FS.Stream) (log : LogView) (report : Report)
    (session : LiveSession) : IO (Except SinkFault Report) := do
  match ← lead input log Session.answer session with
  | (.error fault, _) => return .error fault
  | (.ok none, session) =>
    let _ ← reveal log (session.record (.finished report.items.size report.errors.size))
    return .ok report
  | (.ok (some reply), session) =>
    let session ← match reply with
      | .parsed _ => pure session
      | .rejected _ => do
        let (_, session) ← lead input log (fun session => (.ok (), session.advance)) session
        pure session
    match ← lead input log Session.prompt session with
    | (.error fault, _) => return .error fault
    | (.ok _, session) => leadTurns input log (report.add reply) session

/-- Lead a session from its first prompt on. -/
def leadSession (input : IO.FS.Stream) (log : LogView) (session : LiveSession) :
    IO (Except SinkFault Report) := do
  match ← lead input log Session.prompt session with
  | (.error fault, _) => return .error fault
  | (.ok _, session) =>
    let (_, session) ← lead input log (fun session => (.ok (), session.advance)) session
    leadTurns input log .empty session

/-- Write a conclusion and answer its exit code. -/
def conclude (conclusion : Conclusion) : IO UInt32 := do
  IO.print conclusion.output
  IO.eprint conclusion.errors
  return conclusion.code.toUInt32

/-- Lead a session on the standard input and conclude. -/
def interact (options : Options) (logSpec? : Option String) : IO UInt32 := do
  let conventions := Conventions.standard
  let log := conventions.log (Cli.thresholdOf options.verbosity) logSpec?
  IO.eprint log.complaints
  match Cli.settings options with
  | .error fault => conclude ⟨1, "", conventions.report (.ofPrecedence fault)⟩
  | .ok settings =>
    let result ← leadSession (← IO.getStdin) log (Cli.session options settings (.ofScript []))
    conclude (conventions.conclude options result "")

/-- Read the whole input and conclude. -/
def runWhole (arguments : List String) (logSpec? : Option String) : IO UInt32 := do
  let environment : Environment := ⟨arguments, [], fun _ => .ok [], logSpec?⟩
  match Conventions.standard.options arguments with
  | .error _ => conclude (Cli.run environment)
  | .ok options =>
    match options.input? with
    | none =>
      conclude (Cli.run { environment with input := ← readAll (← IO.getStdin) #[] })
    | some path =>
      let opened ← openFile path
      conclude (Cli.run { environment with openFile := fun _ => opened })

end OpLang.CommandLine

/-- Run the program. -/
def main (arguments : List String) : IO UInt32 := do
  let logSpec? ← IO.getEnv "RUST_LOG"
  match OpLang.Conventions.standard.options arguments with
  | .ok options =>
    if options.input?.isNone && !options.listTokens then
      OpLang.CommandLine.interact options logSpec?
    else OpLang.CommandLine.runWhole arguments logSpec?
  | .error _ => OpLang.CommandLine.runWhole arguments logSpec?
