import OpLang.Number.Decimal
import OpLang.Number.Rounding

/-! # Numeric literals

A literal is a run of digits and points. Its beginnings are tried from the whole literal on down,
and the first one that reads as a number decides: `12.5.7` is `12.5`, and a literal of which no
beginning is a number is zero.
-/

namespace OpLang

/-- The number that a decimal is rounded to. -/
def Decimal.rounded (decimal : Decimal) : Binary64 :=
  Binary64.nearest decimal.coefficient (Nat.pow 10 decimal.places)

namespace Literal

/-- The characters a literal is made of. -/
def isPart (char : Char) : Bool := char.isDigit || char == '.'

/-- The decimal that a whole text spells: digits, with at most one point in front of them, between
them or behind them. -/
def decimal? (text : List Char) : Option Decimal :=
  let whole := text.takeWhile Char.isDigit
  match text.dropWhile Char.isDigit with
  | [] => if whole.isEmpty then none else some (.ofDigits whole [])
  | point :: fraction =>
    if point == '.' && fraction.all Char.isDigit && !(whole.isEmpty && fraction.isEmpty) then
      some (.ofDigits whole fraction)
    else none

/-- The number that a whole text reads as: its decimal, correctly rounded. -/
def number? (text : List Char) : Option Binary64 := (decimal? text).map Decimal.rounded

/-- The beginnings of a literal that hold something, from the longest on down. -/
def beginnings (literal : List Char) : List (List Char) :=
  (List.range' 1 literal.length).reverse.map literal.take

/-- The number of a literal: that of its longest beginning which reads as one, else zero. -/
def value (literal : List Char) : Binary64 :=
  ((beginnings literal).findSome? number?).getD .zero

end Literal

end OpLang
