import OpLang.Cli.Program
import OpLang.Cli.Suggestion

/-! # Command line arguments

Arguments that begin with a dash are flags and options until `--` ends them; a lone dash is not one.
Short flags may be joined. The option for precedences takes the rest of its argument as its value,
or else the next argument unless that begins with a dash. Help and version are answered as soon as
they are met; a missing value and repeated flags are found only after everything else has been read.
-/

namespace OpLang

/-- Why arguments cannot be followed. -/
inductive ArgumentFault where
  | unexpected (argument : String) (suggestion? : Option String)
  | missingPrecedence
  | repeated (flag : String)
deriving DecidableEq, Repr

namespace ArgumentFault

/-- A text in green, as terminals understand it. -/
def green (text : String) : String := "\x1b[32m" ++ text ++ "\x1b[0m"

/-- The wording of a fault. A suggestion is coloured wherever it is shown. -/
def text : ArgumentFault → String
  | unexpected argument suggestion? =>
    "Found argument '" ++ argument ++ "' which wasn't expected, or isn't valid in this context" ++
      match suggestion? with
      | some suggestion => "\n\tDid you mean " ++ green "--" ++ green suggestion ++ "?"
      | none => ""
  | missingPrecedence =>
    "The argument '--precedence <OP=N>...' requires a value but none was supplied"
  | repeated flag =>
    "The argument '" ++ flag ++
      "' was provided more than once, but cannot be used multiple times"

end ArgumentFault

/-- Why the reading of arguments ends early. -/
inductive Stop where
  | help
  | version
  | fault (fault : ArgumentFault)
deriving DecidableEq, Repr

/-- The flags, which have no value. -/
inductive Flag where
  | quiet
  | dumpItems
  | listTokens
  | strictParameters
  | verbose
  | help
  | version
deriving DecidableEq, Repr

namespace Flag

/-- The flag of a letter. -/
def ofLetter? : Char → Option Flag
  | 'q' => some quiet
  | 'v' => some verbose
  | 'h' => some help
  | 'V' => some version
  | _ => none

/-- The flag of a name. -/
def ofName? : String → Option Flag
  | "quiet" => some quiet
  | "dump-ast" => some dumpItems
  | "tokens" => some listTokens
  | "strict-params" => some strictParameters
  | "help" => some help
  | "version" => some version
  | _ => none

end Flag

/-- The name of the option for precedences. -/
def precedenceName : String := "precedence"

/-- The names that flags and options have, in the order in which they are suggested. -/
def longNames : List String :=
  [precedenceName, "quiet", "dump-ast", "tokens", "strict-params", "help", "version"]

/-- What has been read of the arguments. -/
structure Arguments where
  input? : Option String
  quiet : Nat
  dumpItems : Nat
  listTokens : Nat
  strictParameters : Nat
  verbose : Nat
  precedences : List String
  /-- Whether the option for precedences was met at all. -/
  precedenceMet : Bool
  /-- Whether the argument read last was the option for precedences without its value. -/
  awaiting : Bool
  /-- Whether flags and options have been ended. -/
  onlyInputs : Bool
deriving DecidableEq, Repr

namespace Arguments

/-- No arguments. -/
def empty : Arguments := ⟨none, 0, 0, 0, 0, 0, [], false, false, false⟩

/-- Take an argument for the name of the input. -/
def takeInput (arguments : Arguments) (argument : String) : Except Stop Arguments :=
  match arguments.input? with
  | none => .ok { arguments with input? := some argument, awaiting := false }
  | some _ => .error (.fault (.unexpected argument none))

/-- Take a flag. -/
def takeFlag (arguments : Arguments) (flag : Flag) : Except Stop Arguments :=
  let arguments := { arguments with awaiting := false }
  match flag with
  | .quiet => .ok { arguments with quiet := arguments.quiet + 1 }
  | .dumpItems => .ok { arguments with dumpItems := arguments.dumpItems + 1 }
  | .listTokens => .ok { arguments with listTokens := arguments.listTokens + 1 }
  | .strictParameters => .ok { arguments with strictParameters := arguments.strictParameters + 1 }
  | .verbose => .ok { arguments with verbose := arguments.verbose + 1 }
  | .help => .error .help
  | .version => .error .version

/-- Take the value of the option for precedences. -/
def takeValue (arguments : Arguments) (value : String) : Arguments :=
  { arguments with precedences := arguments.precedences ++ [value], awaiting := false }

/-- Take the option for precedences with what stands behind its name in the same argument. Equals
signs before a value are not part of it. -/
def takePrecedence (arguments : Arguments) (attached? : Option (List Char)) : Arguments :=
  let arguments := { arguments with precedenceMet := true }
  match attached? with
  | some attached => arguments.takeValue (String.ofList (attached.dropWhile (· == '=')))
  | none => { arguments with awaiting := true }

/-- Take an argument that gives a flag or the option by its name, without its leading dashes. -/
def takeLong (arguments : Arguments) (argument : List Char) : Except Stop Arguments :=
  let name := argument.takeWhile (· != '=')
  let attached? := (argument.dropWhile (· != '=')).tail?
  if String.ofList name = precedenceName then .ok (arguments.takePrecedence attached?)
  else
    match Flag.ofName? (String.ofList name) with
    | some flag => arguments.takeFlag flag
    | none =>
      .error (.fault (.unexpected ("--" ++ String.ofList name)
        (Suggestion.closest? name longNames)))

/-- Take joined flags, of which the last may be the option for precedences. -/
def takeShort (arguments : Arguments) : List Char → Except Stop Arguments
  | [] => .ok arguments
  | 'p' :: rest => .ok (arguments.takePrecedence (if rest.isEmpty then none else some rest))
  | letter :: rest =>
    match Flag.ofLetter? letter with
    | some flag =>
      match arguments.takeFlag flag with
      | .ok arguments => arguments.takeShort rest
      | .error stop => .error stop
    | none => .error (.fault (.unexpected (String.ofList ['-', letter]) none))

/-- Take an argument. -/
def take (arguments : Arguments) (argument : String) : Except Stop Arguments :=
  if arguments.onlyInputs then arguments.takeInput argument
  else
    match argument.toList with
    | ['-', '-'] => .ok { arguments with onlyInputs := true }
    | '-' :: '-' :: long => arguments.takeLong (long.dropWhile (· == '-'))
    | '-' :: short :: shorts => arguments.takeShort (short :: shorts)
    | _ =>
      if arguments.awaiting then .ok (arguments.takeValue argument)
      else arguments.takeInput argument

/-- Take arguments one after the other. -/
def takeAll (arguments : Arguments) : List String → Except Stop Arguments
  | [] => .ok arguments
  | argument :: rest =>
    match arguments.take argument with
    | .ok arguments => arguments.takeAll rest
    | .error stop => .error stop

/-- A flag that was given more than once although that makes no sense. -/
def repeated? (arguments : Arguments) : Option String :=
  if 1 < arguments.quiet then some "--quiet"
  else if 1 < arguments.dumpItems then some "--dump-ast"
  else if 1 < arguments.listTokens then some "--tokens"
  else if 1 < arguments.strictParameters then some "--strict-params"
  else none

/-- The options that the arguments amount to. The option for precedences needs a value at least
once. -/
def finish (arguments : Arguments) : Except Stop Options :=
  if arguments.precedenceMet && arguments.precedences.isEmpty then
    .error (.fault .missingPrecedence)
  else
    match arguments.repeated? with
    | some flag => .error (.fault (.repeated flag))
    | none =>
      .ok {
        input? := arguments.input?
        quiet := 0 < arguments.quiet
        dumpItems := 0 < arguments.dumpItems
        listTokens := 0 < arguments.listTokens
        strictParameters := 0 < arguments.strictParameters
        verbosity := arguments.verbose
        precedences := arguments.precedences }

/-- Read the arguments of a command line. -/
def parse (arguments : List String) : Except Stop Options :=
  match empty.takeAll arguments with
  | .ok arguments => arguments.finish
  | .error stop => .error stop

end Arguments

end OpLang
