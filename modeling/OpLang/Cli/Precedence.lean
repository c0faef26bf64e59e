import OpLang.Number.Integer
import OpLang.Settings

/-! # Precedences given as text

The precedence of an operator is given as the operator, an equals sign and an integer. The equals
sign itself may be the operator, as in `==5`.
-/

namespace OpLang

/-- Why a text gives no precedence. -/
inductive PrecedenceFault where
  | empty
  | notAscii (char : Char)
  | malformed (spec : String)
  | invalidNumber (spec : String) (fault : IntegerFault)
deriving DecidableEq, Repr

namespace PrecedenceFault

/-- The wording of a fault. -/
def text : PrecedenceFault → String
  | empty => "empty operator precedence"
  | notAscii char => "operator '" ++ String.singleton char ++ "' is not a single ASCII character"
  | malformed spec => "expected OP=PRECEDENCE, found '" ++ spec ++ "'"
  | invalidNumber spec _ => "invalid precedence in '" ++ spec ++ "'"

/-- What lies behind a fault. -/
def cause? : PrecedenceFault → Option String
  | invalidNumber _ fault => some fault.text
  | _ => none

end PrecedenceFault

/-- Read an operator with its precedence. -/
def parsePrecedence (spec : String) : Except PrecedenceFault (Char × Int32) :=
  match spec.toList with
  | [] => .error .empty
  | operator :: rest =>
    if !isAscii operator then .error (.notAscii operator)
    else
      match rest with
      | '=' :: digits =>
        match parseInt32 digits with
        | .ok precedence => .ok (operator, precedence)
        | .error fault => .error (.invalidNumber spec fault)
      | _ => .error (.malformed spec)

/-- Enter precedences given as texts one after the other; the first faulty one decides. -/
def installSpecs (operators : Operators) : List String → Except PrecedenceFault Operators
  | [] => .ok operators
  | spec :: specs =>
    match parsePrecedence spec with
    | .ok (operator, precedence) => installSpecs (operators.install operator precedence) specs
    | .error fault => .error fault

end OpLang
