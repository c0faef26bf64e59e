import OpLang.Location
import OpLang.Number.Shortest
import OpLang.Text.Escape

/-! # Tokens

A text is read as words, numeric literals and single characters. Two words are reserved: one opens
a definition, the other a declaration.
-/

namespace OpLang

/-- What a token says. -/
inductive Token where
  | endOfInput
  /-- The reserved word that opens a definition. -/
  | define
  /-- The reserved word that opens a declaration. -/
  | declare
  | name (text : String)
  | number (value : Binary64)
  /-- Any other character: operators, punctuation and what the language has no use for. -/
  | symbol (char : Char)
deriving DecidableEq, Repr, Inhabited

/-- A token with the place of its first character; the end of input stands past the last one. -/
structure LocatedToken where
  token : Token
  location : Location
deriving DecidableEq, Repr, Inhabited

namespace Token

/-- The token of a word. -/
def ofWord (word : String) : Token :=
  if word = "def" then define
  else if word = "extern" then declare
  else name word

/-- How messages call a token. -/
def text : Token → String
  | endOfInput => "end of input"
  | define => "'def'"
  | declare => "'extern'"
  | name text => "identifier '" ++ text ++ "'"
  | number value => "number " ++ value.text
  | symbol char => "'" ++ String.ofList (escape char) ++ "'"

instance : ToString Token := ⟨text⟩

end Token

end OpLang
