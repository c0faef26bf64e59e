import OpLang.Log
import OpLang.Pattern.Meaning

/-! # Choosing which records are shown

A filter is a list of directives. Each sets a threshold, for all records or for those whose target
begins with some text, and the directive with the longest such text decides. A filter given as text
is a list of directives separated by commas; behind a slash may stand a pattern for the messages to
be shown.
-/

namespace OpLang

/-- A threshold for the targets with some beginning, or for all of them. -/
structure Directive where
  scope? : Option String
  threshold : Threshold
deriving DecidableEq, Repr

namespace Directive

/-- Whether a directive speaks of a target. -/
def covers (directive : Directive) (target : String) : Bool :=
  match directive.scope? with
  | none => true
  | some scope => scope.toList.isPrefixOf target.toList

/-- How narrow a directive is. -/
def narrowness (directive : Directive) : Nat :=
  match directive.scope? with
  | none => 0
  | some scope => scope.utf8ByteSize

end Directive

/-- Directives in the order in which their scopes were first named, and a rule for messages. -/
structure LogFilter where
  directives : List Directive
  rule? : Option Pattern.Rule
deriving DecidableEq, Repr

namespace LogFilter

/-- The filter with one threshold for all records. -/
def ofThreshold (threshold : Threshold) : LogFilter := ⟨[⟨none, threshold⟩], none⟩

/-- Put a directive in the place of an earlier one for the same scope, else behind all others. -/
def replace (directive : Directive) : List Directive → List Directive
  | [] => [directive]
  | earlier :: directives =>
    if earlier.scope? = directive.scope? then directive :: directives
    else earlier :: replace directive directives

/-- The narrower of two directives, the later one if they are equally narrow. -/
def narrower (best? : Option Directive) (directive : Directive) : Option Directive :=
  match best? with
  | some best => if directive.narrowness < best.narrowness then best else directive
  | none => directive

/-- The narrowest directive for a target; the last of equally narrow ones. -/
def directiveFor? (filter : LogFilter) (target : String) : Option Directive :=
  (filter.directives.filter (·.covers target)).foldl narrower none

/-- Whether an event is shown. -/
def shows (filter : LogFilter) (event : Event) : Bool :=
  (filter.directiveFor? event.target).any (·.threshold.admits event.level) &&
    filter.rule?.all (·.occursIn event.message.toList)

/-- The threshold that a word names, in whatever case. -/
def threshold? (word : String) : Option Threshold :=
  match word.toLower with
  | "off" => some none
  | "error" => some (some .error)
  | "warn" => some (some .warn)
  | "info" => some (some .info)
  | "debug" => some (some .debug)
  | "trace" => some (some .trace)
  | _ => none

/-- A text without the blanks at its ends. -/
def trimmed (text : String) : String :=
  String.ofList ((text.toList.dropWhile isBlank).reverse.dropWhile isBlank).reverse

/-- The complaint about a part that cannot be read. -/
def complaint (part : String) : String := "invalid logging spec '" ++ part ++ "'"

/-- Read one directive: a threshold, a scope, or both with an equals sign between them. A scope
alone lets every record pass. -/
def parseDirective (part : String) : Except String Directive :=
  match part.splitOn "=" with
  | [word] =>
    match threshold? word with
    | some threshold => .ok ⟨none, threshold⟩
    | none => .ok ⟨some word, some .trace⟩
  | [scope, word] =>
    if trimmed word = "" then .ok ⟨some scope, some .trace⟩
    else
      match threshold? (trimmed word) with
      | some threshold => .ok ⟨some scope, threshold⟩
      | none => .error (complaint (trimmed word))
  | _ => .error (complaint part)

/-- Add one part of a text to a filter, or complain about it. -/
def addPart (state : LogFilter × List String) (part : String) : LogFilter × List String :=
  let (filter, complaints) := state
  if trimmed part = "" then state
  else
    match parseDirective (trimmed part) with
    | .ok directive =>
      ({ filter with directives := replace directive filter.directives }, complaints)
    | .error complaint => (filter, complaints ++ [complaint])

/-- Let a pattern choose messages, or complain about it. -/
def addPattern (state : LogFilter × List String) (pattern : String) : LogFilter × List String :=
  let (filter, complaints) := state
  match Pattern.Rule.ofText pattern with
  | .ok rule => ({ filter with rule? := some rule }, complaints)
  | .error refusal => (filter, complaints ++ ["invalid regex filter - " ++ refusal.text])

/-- Add directives separated by commas to a filter. -/
def addParts (filter : LogFilter) (parts : String) : LogFilter × List String :=
  (parts.splitOn ",").foldl addPart (filter, [])

/-- Add what a text says to a filter. The second component holds complaints about the parts of the
text that cannot be read, which change nothing. -/
def addSpec (filter : LogFilter) (spec : String) : LogFilter × List String :=
  match spec.splitOn "/" with
  | [parts] => filter.addParts parts
  | [parts, pattern] => addPattern (filter.addParts parts) pattern
  | _ => (filter, [complaint spec ++ " (too many '/'s)"])

end LogFilter

end OpLang
