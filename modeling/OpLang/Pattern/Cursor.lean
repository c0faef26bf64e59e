import OpLang.Pattern.Fault
import OpLang.Text.Blank

/-! # Reading a pattern

A cursor stands before a character of a pattern or at its end. In extended mode blanks and comments
may stand between the parts of a pattern and are passed over.
-/

namespace OpLang.Pattern

/-- A character with its place. -/
structure Place where
  char : Char
  location : Location
deriving DecidableEq, Repr, Inhabited

/-- The location behind a character. -/
def behind (location : Location) (char : Char) : Location :=
  if char = '\n' then ⟨location.line + 1, 1⟩ else ⟨location.line, location.column + 1⟩

namespace Place

/-- Where a character stands. -/
def span (place : Place) : Span := ⟨place.location, behind place.location place.char⟩

end Place

/-- What is left of a pattern, where it ends, and whether blanks and comments are passed over. -/
structure Cursor where
  ahead : List Place
  finish : Location
  extended : Bool
deriving Repr, Inhabited

namespace Cursor

/-- The places of characters from a location on, and the location behind them. -/
def placesFrom (location : Location) : List Char → List Place × Location
  | [] => ([], location)
  | char :: chars =>
    let (places, finish) := placesFrom (behind location char) chars
    (⟨char, location⟩ :: places, finish)

/-- The cursor at the beginning of a pattern. -/
def ofText (text : String) : Cursor :=
  let (places, finish) := placesFrom .first text.toList
  ⟨places, finish, false⟩

/-- Where a cursor stands. -/
def here (cursor : Cursor) : Location :=
  match cursor.ahead with
  | place :: _ => place.location
  | [] => cursor.finish

/-- The character at a cursor. -/
def char? (cursor : Cursor) : Option Char := cursor.ahead.head?.map (·.char)

/-- Where the character at a cursor stands; at the end, the end itself. -/
def hereSpan (cursor : Cursor) : Span :=
  match cursor.ahead with
  | place :: _ => place.span
  | [] => .point cursor.finish

/-- Complain about a stretch. -/
def complain {α : Type} (span : Span) (cause : Cause) : Except Complaint α :=
  .error ⟨cause, span, none⟩

/-- Complain about the stretch from a location to a cursor. -/
def complainFrom {α : Type} (cursor : Cursor) (start : Location) (cause : Cause) :
    Except Complaint α :=
  complain ⟨start, cursor.here⟩ cause

/-- The same cursor before other characters. -/
def moveTo (cursor : Cursor) (ahead : List Place) : Cursor := { cursor with ahead }

/-- What is left behind blanks and comments; a comment runs from its sign to the end of its line. -/
def dropBlanks : (inComment : Bool) → List Place → List Place
  | _, [] => []
  | true, place :: places => dropBlanks (place.char != '\n') places
  | false, place :: places =>
    if isBlank place.char then dropBlanks false places
    else if place.char = '#' then dropBlanks true places
    else place :: places

theorem length_dropBlanks_le (inComment : Bool) (places : List Place) :
    (dropBlanks inComment places).length ≤ places.length := by
  induction places generalizing inComment with
  | nil => cases inComment <;> simp [dropBlanks]
  | cons place places ih =>
    cases inComment with
    | true => exact Nat.le_succ_of_le (ih _)
    | false =>
      unfold dropBlanks
      split
      · exact Nat.le_succ_of_le (ih _)
      · split
        · exact Nat.le_succ_of_le (ih _)
        · exact Nat.le_refl _

/-- Pass one character. -/
def skip (cursor : Cursor) : Cursor := cursor.moveTo cursor.ahead.tail

/-- Pass blanks and comments where that is the mode. -/
def skipBlanks (cursor : Cursor) : Cursor :=
  if cursor.extended then cursor.moveTo (dropBlanks false cursor.ahead) else cursor

/-- Pass one character, then blanks and comments. -/
def advance (cursor : Cursor) : Cursor := cursor.skip.skipBlanks

theorem length_advance_lt {cursor : Cursor} {place : Place} {places : List Place}
    (ahead : cursor.ahead = place :: places) :
    cursor.advance.ahead.length < cursor.ahead.length := by
  have shrinks := length_dropBlanks_le false places
  simp only [advance, skipBlanks, skip, moveTo, ahead, List.tail_cons]
  split
  · simp only [List.length_cons]
    omega
  · simp

/-- The character behind the one at a cursor. -/
def peek? (cursor : Cursor) : Option Char := cursor.ahead.tail.head?.map (·.char)

/-- The first character behind blanks and a sign of a comment. -/
def firstSolid? : (inComment : Bool) → List Place → Option Char
  | _, [] => none
  | inComment, place :: places =>
    if isBlank place.char then firstSolid? inComment places
    else if !inComment && place.char == '#' then firstSolid? true places
    else some place.char

/-- The character behind the one at a cursor and behind blanks where these are passed over. If
nothing but blanks follows, it is the first of them. -/
def peekSolid? (cursor : Cursor) : Option Char :=
  if cursor.extended then (firstSolid? false cursor.ahead.tail).or cursor.peek?
  else cursor.peek?

/-- Whether the characters at a cursor are these. -/
def startsWith (cursor : Cursor) (chars : List Char) : Bool :=
  chars.isPrefixOf (cursor.ahead.map (·.char))

/-- Pass a number of characters. -/
def drop (cursor : Cursor) (count : Nat) : Cursor := cursor.moveTo (cursor.ahead.drop count)

/-- Read characters that satisfy a condition, passing blanks and comments in between. -/
def takeWhile (accepts : Char → Bool) (cursor : Cursor) : List Char × Cursor :=
  match _ : cursor.ahead with
  | [] => ([], cursor)
  | place :: _ =>
    if accepts place.char then
      let (chars, rest) := cursor.advance.takeWhile accepts
      (place.char :: chars, rest)
    else ([], cursor)
termination_by cursor.ahead.length
decreasing_by exact length_advance_lt ‹_›

end Cursor

end OpLang.Pattern
