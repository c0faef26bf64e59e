import OpLang.Pattern.Tree

/-! # Faults in patterns

A fault names its cause and the stretch of the pattern it was found in. Its report shows the lines
of the pattern with the stretch underlined.
-/

namespace OpLang.Pattern

/-- How deeply the parts of a pattern may be nested. -/
def nestingLimit : Nat := 250

/-- How many bytes the machine for a pattern may take. -/
def sizeLimit : Nat := 10 * Nat.pow 2 20

/-- What is wrong with a pattern. -/
inductive Cause where
  | setEscape
  | rangeReversed
  | rangeBoundary
  | setUnclosed
  | decimalEmpty
  | decimalTooLarge
  | hexEmpty
  | hexNoCharacter
  | hexDigit
  | escapeUnfinished
  | escapeUnknown
  | flagNegationDangling
  | flagRepeated
  | flagNegationRepeated
  | flagMissing
  | flagUnknown
  | groupNameRepeated
  | groupNameEmpty
  | groupNameInvalid
  | groupNameUnclosed
  | groupUnclosed
  | groupUnopened
  | nestedTooDeeply
  | countReversed
  | countEmpty
  | countUnclosed
  | nothingToRepeat
  | boundaryUnclosed
  | boundaryUnknown
  | boundaryUnfinished
  | propertyMalformed
  | backreference
  | lookAround
  | unicodeNotAllowed
  | invalidUtf8
  | propertyUnknown
  | propertyValueUnknown
  | shorthandUnavailable
  | caseUnavailable
deriving DecidableEq, Repr

namespace Cause

/-- The wording of a cause. -/
def text : Cause → String
  | setEscape => "invalid escape sequence found in character class"
  | rangeReversed => "invalid character class range, the start must be <= the end"
  | rangeBoundary => "invalid range boundary, must be a literal"
  | setUnclosed => "unclosed character class"
  | decimalEmpty => "decimal literal empty"
  | decimalTooLarge => "decimal literal invalid"
  | hexEmpty => "hexadecimal literal empty"
  | hexNoCharacter => "hexadecimal literal is not a Unicode scalar value"
  | hexDigit => "invalid hexadecimal digit"
  | escapeUnfinished => "incomplete escape sequence, reached end of pattern prematurely"
  | escapeUnknown => "unrecognized escape sequence"
  | flagNegationDangling => "dangling flag negation operator"
  | flagRepeated => "duplicate flag"
  | flagNegationRepeated => "flag negation operator repeated"
  | flagMissing => "expected flag but got end of regex"
  | flagUnknown => "unrecognized flag"
  | groupNameRepeated => "duplicate capture group name"
  | groupNameEmpty => "empty capture group name"
  | groupNameInvalid => "invalid capture group character"
  | groupNameUnclosed => "unclosed capture group name"
  | groupUnclosed => "unclosed group"
  | groupUnopened => "unopened group"
  | nestedTooDeeply =>
    "exceed the maximum number of nested parentheses/brackets (" ++ toString nestingLimit ++ ")"
  | countReversed => "invalid repetition count range, the start must be <= the end"
  | countEmpty => "repetition quantifier expects a valid decimal"
  | countUnclosed => "unclosed counted repetition"
  | nothingToRepeat => "repetition operator missing expression"
  | boundaryUnclosed =>
    "special word boundary assertion is either unclosed or contains an invalid character"
  | boundaryUnknown =>
    "unrecognized special word boundary assertion, " ++
      "valid choices are: start, end, start-half or end-half"
  | boundaryUnfinished =>
    "found either the beginning of a special word boundary or a bounded repetition on a \\b " ++
      "with an opening brace, but no closing brace"
  | propertyMalformed => "invalid Unicode character class"
  | backreference => "backreferences are not supported"
  | lookAround => "look-around, including look-ahead and look-behind, is not supported"
  | unicodeNotAllowed => "Unicode not allowed here"
  | invalidUtf8 => "pattern can match invalid UTF-8"
  | propertyUnknown => "Unicode property not found"
  | propertyValueUnknown => "Unicode property value not found"
  | shorthandUnavailable =>
    "Unicode-aware Perl class not found (make sure the unicode-perl feature is enabled)"
  | caseUnavailable =>
    "Unicode-aware case insensitivity matching is not available " ++
      "(make sure the unicode-case feature is enabled)"

end Cause

/-- A cause with the stretch that shows it, and an earlier stretch that it conflicts with. -/
structure Complaint where
  cause : Cause
  span : Span
  earlier? : Option Span
deriving DecidableEq, Repr

namespace Complaint

/-- The stretches of a complaint in the order of the pattern. -/
def spans (complaint : Complaint) : List Span :=
  complaint.earlier?.toList ++ [complaint.span]

/-- Underline stretches of one line, from a column on. -/
def underline (column : Nat) : List Span → List Char
  | [] => []
  | span :: spans =>
    let start := max column span.first.column
    let width := max 1 (span.past.column - span.first.column)
    List.replicate (start - column) ' ' ++ List.replicate width '^' ++
      underline (start + width) spans

/-- Lines of a pattern with the stretches that lie in them; lines are counted from the first number.
A margin is put before each line, and as much blank before its underlining. -/
def showLines (margin : Nat → String) (complaint : Complaint) : (line : Nat) → List String → String
  | _, [] => ""
  | line, text :: texts =>
    let here := complaint.spans.filter fun span => span.first.line = line && span.past.line = line
    let mark :=
      if here.isEmpty then ""
      else String.ofList (List.replicate (margin line).length ' ' ++ underline 1 here) ++ "\n"
    margin line ++ text ++ "\n" ++ mark ++ showLines margin complaint (line + 1) texts

/-- The lines that a text consists of. A newline at its end and a carriage return before a newline
do not count. -/
def linesOf (text : String) : List String :=
  let parts := text.splitOn "\n"
  let ended := parts.dropLast.map fun line =>
    if line.endsWith "\r" then String.ofList line.toList.dropLast else line
  match parts.getLast? with
  | none => ended
  | some "" => ended
  | some last => ended ++ [last]

/-- A number that takes a width, with blanks before it. -/
def padded (width number : Nat) : String :=
  String.ofList ((toString number).toList.leftpad width ' ')

/-- A note about a stretch over several lines. -/
def spreadNote (span : Span) : String :=
  "on line " ++ toString span.first.line ++ " (column " ++ toString span.first.column ++
    ") through line " ++ toString span.past.line ++ " (column " ++
    toString (span.past.column - 1) ++ ")"

/-- The report on a pattern: the pattern with its fault marked, then the wording of the cause. The
lines of a pattern of several lines are numbered. -/
def report (pattern : String) (complaint : Complaint) : String :=
  let lines := linesOf pattern
  let count := lines.length + if pattern.endsWith "\n" then 1 else 0
  let width := if count ≤ 1 then 0 else (toString count).length
  let margin := fun line => if width = 0 then "    " else padded width line ++ ": "
  let shown := complaint.showLines margin 1 lines
  let verdict := "error: " ++ complaint.cause.text
  if pattern.toList.contains '\n' then
    let divider := String.ofList (List.replicate 79 '~') ++ "\n"
    let spread := complaint.spans.filter fun span => span.first.line != span.past.line
    let notes :=
      if spread.isEmpty then "" else String.intercalate "\n" (spread.map spreadNote) ++ "\n"
    "regex parse error:\n" ++ divider ++ shown ++ divider ++ notes ++ verdict
  else "regex parse error:\n" ++ shown ++ verdict

end Complaint

end OpLang.Pattern
