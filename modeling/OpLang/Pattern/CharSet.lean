import OpLang.Pattern.Tree

/-! # Sets of characters

A set of characters is described by ranges and the operations of sets. It can be widened by the
ASCII letters that differ from one of its own only by case.
-/

namespace OpLang.Pattern

/-- A set of characters. -/
inductive CharSet where
  | ranges (pairs : List (Nat × Nat))
  | complement (set : CharSet)
  | union (left right : CharSet)
  | intersection (left right : CharSet)
  | folded (set : CharSet)
deriving DecidableEq, Repr

namespace CharSet

/-- Whether a character belongs to a set. -/
def contains : CharSet → Char → Bool
  | .ranges pairs, char =>
    pairs.any fun (first, last) => first ≤ char.toNat && char.toNat ≤ last
  | complement set, char => !set.contains char
  | union left right, char => left.contains char || right.contains char
  | intersection left right, char => left.contains char && right.contains char
  | folded set, char => set.contains char.toLower || set.contains char.toUpper

/-- No characters. -/
def empty : CharSet := ranges []

/-- All characters. -/
def all : CharSet := complement empty

/-- One character. -/
def single (char : Char) : CharSet := ranges [(char.toNat, char.toNat)]

/-- The characters between two, both included. -/
def between (first last : Char) : CharSet := ranges [(first.toNat, last.toNat)]

/-- The characters of one set that are not in another. -/
def difference (left right : CharSet) : CharSet := intersection left (complement right)

/-- Combine two sets. -/
def combine : SetOperator → CharSet → CharSet → CharSet
  | .intersection, left, right => intersection left right
  | .difference, left, right => difference left right
  | .symmetricDifference, left, right => union (difference left right) (difference right left)

/-- The complement of a set if that is wanted. -/
def negatedIf (wanted : Bool) (set : CharSet) : CharSet := if wanted then complement set else set

/-- The ranges of the sets of ASCII characters that have a name. -/
def asciiRanges : AsciiSet → List (Nat × Nat)
  | .alnum => [(0x30, 0x39), (0x41, 0x5A), (0x61, 0x7A)]
  | .alpha => [(0x41, 0x5A), (0x61, 0x7A)]
  | .ascii => [(0x00, 0x7F)]
  | .blank => [(0x09, 0x09), (0x20, 0x20)]
  | .cntrl => [(0x00, 0x1F), (0x7F, 0x7F)]
  | .digit => [(0x30, 0x39)]
  | .graph => [(0x21, 0x7E)]
  | .lower => [(0x61, 0x7A)]
  | .print => [(0x20, 0x7E)]
  | .punct => [(0x21, 0x2F), (0x3A, 0x40), (0x5B, 0x60), (0x7B, 0x7E)]
  | .space => [(0x09, 0x0D), (0x20, 0x20)]
  | .upper => [(0x41, 0x5A)]
  | .word => [(0x30, 0x39), (0x41, 0x5A), (0x5F, 0x5F), (0x61, 0x7A)]
  | .xdigit => [(0x30, 0x39), (0x41, 0x46), (0x61, 0x66)]

end CharSet

/-- The ASCII characters of a set that has a letter. -/
def Shorthand.asciiSet : Shorthand → AsciiSet
  | .digit => .digit
  | .space => .space
  | .word => .word

/-- Whether a character is an ASCII letter, an ASCII digit or an underscore. -/
def isWordChar (char : Char) : Bool := (CharSet.ranges (CharSet.asciiRanges .word)).contains char

end OpLang.Pattern
