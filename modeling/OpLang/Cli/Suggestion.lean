/-! # Suggesting a name that was meant

Two names are the more alike the more characters they share in about the same place and the longer
their common beginning is. Likeness is a fraction, so it is compared exactly.
-/

namespace OpLang.Suggestion

/-- The characters of a name with the mark of those already matched. -/
abbrev Marked := List (Char × Bool)

/-- Match a character with the first unmarked equal one whose place lies between two bounds, and
give that place. -/
def matchBetween (char : Char) (first last : Nat) : (place : Nat) → Marked → Option (Nat × Marked)
  | _, [] => none
  | place, (other, taken) :: rest =>
    if first ≤ place && place ≤ last && char == other && !taken then
      some (place, (other, true) :: rest)
    else
      (matchBetween char first last (place + 1) rest).map fun (found, rest) =>
        (found, (other, taken) :: rest)

/-- How many characters of a name match characters of another within a reach, and how many of these
lie before the match made just before them. -/
def countMatches (reach : Nat) : (place previous : Nat) → List Char → Marked → Nat × Nat
  | _, _, [], _ => (0, 0)
  | place, previous, char :: chars, marked =>
    match matchBetween char (place - reach) (place + reach) 0 marked with
    | none => countMatches reach (place + 1) previous chars marked
    | some (found, marked) =>
      let (matched, crossed) := countMatches reach (place + 1) found chars marked
      (matched + 1, if found < previous then crossed + 1 else crossed)

/-- A fraction between zero and one. -/
structure Likeness where
  numerator : Nat
  denominator : Nat
deriving DecidableEq, Repr

namespace Likeness

/-- Whether one fraction is below another. -/
def below (left right : Likeness) : Bool :=
  left.numerator * right.denominator < right.numerator * left.denominator

end Likeness

/-- The length of the common beginning of two names. -/
def commonStart : List Char → List Char → Nat
  | left :: lefts, right :: rights => if left = right then commonStart lefts rights + 1 else 0
  | _, _ => 0

/-- The mean of three shares: of the matches in each name, and of the matches that do not cross. -/
def sharedCharacters (left right : List Char) : Likeness :=
  if left.isEmpty || right.isEmpty then
    if left.isEmpty && right.isEmpty then ⟨1, 1⟩ else ⟨0, 1⟩
  else
    let reach := max left.length right.length / 2 - 1
    let (matched, crossed) := countMatches reach 0 0 left (right.map (·, false))
    if matched = 0 then ⟨0, 1⟩
    else
      ⟨matched * matched * (left.length + right.length) +
          (matched - crossed) * left.length * right.length,
        3 * left.length * right.length * matched⟩

/-- The likeness of two names: each character of their common beginning takes away a tenth of what
the shared characters leave to be desired. -/
def likeness (left right : List Char) : Likeness :=
  let shared := sharedCharacters left right
  let start := commonStart left right
  let numerator := 10 * shared.numerator + start * (shared.denominator - shared.numerator)
  ⟨min numerator (10 * shared.denominator), 10 * shared.denominator⟩

/-- The more alike of the best candidate so far and another one; the earlier one of equals. -/
def better (name : List Char) (best : Option String × Likeness) (candidate : String) :
    Option String × Likeness :=
  let found := likeness name candidate.toList
  if best.2.below found then (some candidate, found) else best

/-- The candidate most like a name, the first of equals, if the likeness exceeds four fifths. -/
def closest? (name : List Char) (candidates : List String) : Option String :=
  (candidates.foldl (better name) (none, ⟨4, 5⟩)).1

end OpLang.Suggestion
