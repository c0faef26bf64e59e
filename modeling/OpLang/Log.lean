import OpLang.Item
import OpLang.Parser.Error

/-! # Log records

What happens while an input is read and parsed is recorded by cause. The importance of a record, the
component it speaks for and its wording all follow from the cause.
-/

namespace OpLang

/-- The importance of a record, from the most to the least important. -/
inductive Level where
  | error
  | warn
  | info
  | debug
  | trace
deriving DecidableEq, Repr, Inhabited

namespace Level

/-- The place of a level in the order of importance; the most important is the lowest. -/
def rank : Level → Nat
  | error => 1
  | warn => 2
  | info => 3
  | debug => 4
  | trace => 5

/-- The name of a level. -/
def name : Level → String
  | error => "ERROR"
  | warn => "WARN"
  | info => "INFO"
  | debug => "DEBUG"
  | trace => "TRACE"

end Level

/-- The least important level that is still of interest, or none at all. -/
abbrev Threshold := Option Level

namespace Threshold

/-- Whether a record of some level is of interest. -/
def admits (threshold : Threshold) (level : Level) : Bool :=
  threshold.any (level.rank ≤ ·.rank)

end Threshold

/-- Something worth a record. -/
inductive Event where
  | readFailed (message : String)
  | tokenRead (found : LocatedToken)
  | parsing (kind : ItemKind) (location : Location)
  | parseFailed (error : ParseError)
  | finished (items errors : Nat)
deriving DecidableEq, Repr

namespace Event

/-- How important an event is. -/
def level : Event → Level
  | readFailed _ => .error
  | tokenRead _ => .trace
  | parsing _ _ => .debug
  | parseFailed _ => .debug
  | finished _ _ => .info

/-- The component that an event is recorded for. -/
def target : Event → String
  | readFailed _ => "mana::source"
  | tokenRead _ => "mana::parser"
  | parsing _ _ => "mana::parser"
  | parseFailed _ => "mana::parser"
  | finished _ _ => "mana::driver"

/-- How records call a kind of item. -/
def kindName : ItemKind → String
  | .definition => "definition"
  | .declaration => "extern"
  | .expression => "top-level expression"

/-- The wording of a record. -/
def message : Event → String
  | readFailed message => "failed to read input: " ++ message
  | tokenRead found => "token " ++ found.token.text ++ " at " ++ found.location.text
  | parsing kind location => "parsing " ++ kindName kind ++ " at " ++ location.text
  | parseFailed error =>
    "parse failed at " ++ error.location.text ++ ": " ++ error.fault.text
  | finished items errors =>
    "parsed " ++ toString items ++ " units with " ++ toString errors ++ " errors"

end Event

end OpLang
