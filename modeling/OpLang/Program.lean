import OpLang.Lexer
import OpLang.Parser.Item

/-! # Parsing whole programs

A program is read item by item until its end or its first error.
-/

namespace OpLang

/-- What was read of a program: the items before the end or before the first error. -/
structure ProgramReading where
  items : Array Item
  error? : Option ParseError

namespace Parser

variable {τ : Type} [TokenSource τ]

/-- Read items, after those already read, until the input ends or an item fails. -/
def items (read : Array Item) (parser : Parser τ) : ProgramReading × Parser τ :=
  match _ : parser.item? with
  | (none, rest) => (⟨read, none⟩, rest)
  | (some ⟨_, .ok item⟩, rest) => items (read.push item) rest
  | (some ⟨_, .error error⟩, rest) => (⟨read, some error⟩, rest)
termination_by parser.size
decreasing_by exact item?_size_lt ‹_›

end Parser

namespace ProgramReading

/-- The items of a program without an error. -/
def result (reading : ProgramReading) : Except ParseError (List Item) :=
  match reading.error? with
  | none => .ok reading.items.toList
  | some error => .error error

end ProgramReading

/-- A parser at the start of a text. -/
def parserOfText (settings : Settings) (text : String) : Parser (Lexer (List Char)) :=
  .ofTokens (.ofSource text.toList) settings

/-- Read the program that a text holds, and keep the parser with its log. -/
def readProgram (settings : Settings) (text : String) :
    ProgramReading × Parser (Lexer (List Char)) :=
  (parserOfText settings text).advance.items #[]

/-- Parse a text as a program. -/
def parseProgram (settings : Settings) (text : String) : Except ParseError (List Item) :=
  (readProgram settings text).1.result

end OpLang
