import OpLang.Pattern.CharSet

/-! # What patterns match

A rule tells, for every place of a text, the places behind what it matches from there. Places are
handled as sets, so a search considers all ways to match at once. That a text contains what a rule
matches is all that is asked; which of several matches would be preferred plays no part.
-/

namespace OpLang.Pattern

/-- Conditions on the characters before and behind a place. -/
inductive Condition where
  | textStart
  | textEnd
  | lineStart
  | lineEnd
  /-- The beginning of a line, where a carriage return ends lines too. -/
  | anyLineStart
  /-- The end of a line, where a carriage return ends lines too. -/
  | anyLineEnd
  | boundary
  | noBoundary
  | wordStart
  | wordEnd
  | wordStartHalf
  | wordEndHalf
deriving DecidableEq, Repr

namespace Condition

/-- Whether a condition holds between two characters, or at an end of the text. -/
def holds (condition : Condition) (before? behind? : Option Char) : Bool :=
  match condition with
  | textStart => before?.isNone
  | textEnd => behind?.isNone
  | lineStart => before?.all (· == '\n')
  | lineEnd => behind?.all (· == '\n')
  | anyLineStart => before?.all fun char => char == '\n' || char == '\r' && behind? != some '\n'
  | anyLineEnd => behind?.all fun char => char == '\r' || char == '\n' && before? != some '\r'
  | boundary => before?.any isWordChar != behind?.any isWordChar
  | noBoundary => before?.any isWordChar == behind?.any isWordChar
  | wordStart => !before?.any isWordChar && behind?.any isWordChar
  | wordEnd => before?.any isWordChar && !behind?.any isWordChar
  | wordStartHalf => !before?.any isWordChar
  | wordEndHalf => !behind?.any isWordChar

end Condition

/-- What a pattern matches. -/
inductive Rule where
  | nothing
  | one (set : CharSet)
  | condition (condition : Condition)
  | sequence (first second : Rule)
  | choice (left right : Rule)
  | repeated (body : Rule) (least : Nat) (most? : Option Nat)
deriving DecidableEq, Repr

/-- A set of places of a text: a mark for each place, from before the first character to behind the
last. -/
abbrev Places := List Bool

namespace Places

/-- The places that are in one of two sets. -/
def join (left right : Places) : Places := List.zipWith (· || ·) left right

/-- Go on from a set of places an exact number of times, or until nothing changes any more. -/
def iterate (go : Places → Places) : (times : Nat) → Places → Places
  | 0, places => places
  | times + 1, places =>
    let next := go places
    if next = places then places else iterate go times next

/-- Go on from a set of places up to a number of times, or until nothing is added any more. -/
def accumulate (go : Places → Places) : (times : Nat) → Places → Places
  | 0, places => places
  | times + 1, places =>
    let next := join places (go places)
    if next = places then places else accumulate go times next

end Places

namespace Rule

/-- The places behind what a rule matches from some places. Longer detours than there are places
lead nowhere new, so every count is cut to the number of places. -/
def follow (text : List Char) : Rule → Places → Places
  | nothing, places => places
  | one set, places =>
    false :: List.zipWith (fun mark char => mark && set.contains char) places text
  | .condition wanted, places =>
    let contexts := List.zip (none :: text.map some) (text.map some ++ [none])
    List.zipWith (fun mark (before?, behind?) => mark && wanted.holds before? behind?)
      places contexts
  | sequence first second, places => second.follow text (first.follow text places)
  | choice left right, places => Places.join (left.follow text places) (right.follow text places)
  | repeated body least most?, places =>
    let limit := text.length + 1
    let atLeast := Places.iterate (body.follow text) (min least limit) places
    match most? with
    | none => Places.accumulate (body.follow text) limit atLeast
    | some most => Places.accumulate (body.follow text) (min (most - least) limit) atLeast

/-- Whether a text contains what a rule matches. -/
def occursIn (rule : Rule) (text : List Char) : Bool :=
  (rule.follow text (List.replicate (text.length + 1) true)).any id

/-- A rule that matches sequences of what some rules match. -/
def ofSequence (rules : List Rule) : Rule := rules.foldr sequence nothing

/-- A rule that matches what any of some rules matches. -/
def ofChoice : List Rule → Rule
  | [] => one .empty
  | [rule] => rule
  | rule :: rules => choice rule (ofChoice rules)

end Rule

end OpLang.Pattern
