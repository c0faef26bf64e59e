/-! # Places in a text

Lines and columns are counted from one. Only a newline starts a line; every other character, wide
or invisible, takes one column. There is no bound on either. Counters of 32 bits agree as long as
the places fit into them (`PlacesFit`), and beyond that the places they tell follow from these
(`Lexer.location_counters`).
-/

namespace OpLang

/-- The line and the column of a character. -/
structure Location where
  line : Nat
  column : Nat
deriving DecidableEq, Repr, Inhabited

namespace Location

/-- Where a text begins. -/
def first : Location := ⟨1, 1⟩

/-- The text of a location: its line, a colon, its column. -/
def text (location : Location) : String :=
  toString location.line ++ ":" ++ toString location.column

instance : ToString Location := ⟨text⟩

end Location

end OpLang
