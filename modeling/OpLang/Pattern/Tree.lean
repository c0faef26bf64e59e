import OpLang.Location

/-! # Search patterns as written

A search pattern describes texts by characters, sets of characters, conditions on a place,
repetition, sequence and choice. Its tree keeps how it was written and where each part stands, so
that a fault can be shown in place.
-/

namespace OpLang.Pattern

/-- A stretch of a pattern: where it begins and the place behind its end. -/
structure Span where
  first : Location
  past : Location
deriving DecidableEq, Repr, Inhabited

namespace Span

/-- The empty stretch at a place. -/
def point (location : Location) : Span := ⟨location, location⟩

end Span

/-- A character that stands for itself. Two hexadecimal digits may also be meant as a byte. -/
structure Literal where
  char : Char
  fromByte : Bool
  span : Span
deriving DecidableEq, Repr, Inhabited

/-- Sets of characters that have a letter. -/
inductive Shorthand where
  | digit
  | space
  | word
deriving DecidableEq, Repr

/-- Sets of ASCII characters that have a name between colons. -/
inductive AsciiSet where
  | alnum
  | alpha
  | ascii
  | blank
  | cntrl
  | digit
  | graph
  | lower
  | print
  | punct
  | space
  | upper
  | word
  | xdigit
deriving DecidableEq, Repr

/-- What a property of characters is asked for by: a name, or a name and a value. -/
inductive PropertyQuery where
  | named (name : String)
  | valued (name value : String)
deriving DecidableEq, Repr

/-- How two sets of characters are combined. -/
inductive SetOperator where
  | intersection
  | difference
  | symmetricDifference
deriving DecidableEq, Repr

/-- What stands between square brackets. -/
inductive Members where
  | nothing (span : Span)
  | literal (literal : Literal)
  | range (first last : Literal) (span : Span)
  | ascii (set : AsciiSet) (negated : Bool) (span : Span)
  | shorthand (set : Shorthand) (negated : Bool) (span : Span)
  | property (query : PropertyQuery) (negated : Bool) (span : Span)
  | nested (negated : Bool) (members : Members) (span : Span)
  | union (parts : List Members) (span : Span)
  | combined (operator : SetOperator) (left right : Members) (span : Span)
deriving Repr, Inhabited

namespace Members

/-- Where members stand. -/
def span : Members → Span
  | nothing span => span
  | literal found => found.span
  | range _ _ span => span
  | ascii _ _ span => span
  | shorthand _ _ span => span
  | property _ _ span => span
  | nested _ _ span => span
  | union _ span => span
  | combined _ _ _ span => span

end Members

/-- Conditions on a place of the text. -/
inductive Assertion where
  | lineStart
  | lineEnd
  | textStart
  | textEnd
  | wordBoundary
  | noWordBoundary
  | wordStart
  | wordEnd
  | wordStartHalf
  | wordEndHalf
deriving DecidableEq, Repr

/-- Settings that can be changed inside a pattern. -/
inductive Flag where
  | ignoreCase
  | multiLine
  | dotMatchesNewline
  | swapGreed
  | unicode
  | carriageReturns
  | ignoreBlanks
deriving DecidableEq, Repr

/-- One entry of a list of flags; all entries behind the negation switch their flag off. -/
structure FlagItem where
  /-- The flag, or none for the negation. -/
  flag? : Option Flag
  span : Span
deriving DecidableEq, Repr

namespace FlagItem

/-- What a list of flags says about a flag, if anything. -/
def state? (flag : Flag) : (enabled : Bool) → List FlagItem → Option Bool
  | _, [] => none
  | enabled, item :: items =>
    match item.flag? with
    | none => state? flag false items
    | some found => if found = flag then some enabled else state? flag enabled items

end FlagItem

/-- A pattern as written. -/
inductive Tree where
  | empty (span : Span)
  | flags (items : List FlagItem) (span : Span)
  | literal (literal : Literal)
  | dot (span : Span)
  | assertion (assertion : Assertion) (span : Span)
  | shorthand (set : Shorthand) (negated : Bool) (span : Span)
  | property (query : PropertyQuery) (negated : Bool) (span : Span)
  | bracket (negated : Bool) (members : Members) (span : Span)
  | repeated (body : Tree) (least : Nat) (most? : Option Nat) (span : Span)
  | group (captures : Bool) (flags : List FlagItem) (body : Tree) (span : Span)
  | sequence (parts : List Tree) (span : Span)
  | choice (branches : List Tree) (span : Span)
deriving Repr, Inhabited

namespace Tree

/-- Where a tree stands. -/
def span : Tree → Span
  | empty span => span
  | flags _ span => span
  | literal found => found.span
  | dot span => span
  | assertion _ span => span
  | shorthand _ _ span => span
  | property _ _ span => span
  | bracket _ _ span => span
  | repeated _ _ _ span => span
  | group _ _ _ span => span
  | sequence _ span => span
  | choice _ span => span

/-- Whether a tree can be repeated. -/
def isRepeatable : Tree → Bool
  | empty _ => false
  | flags _ _ => false
  | _ => true

end Tree

end OpLang.Pattern
