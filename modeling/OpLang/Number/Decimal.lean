/-! # Decimal numbers and their text

A decimal is a coefficient with a count of places after the point. Its text is positional: the
digits of the whole part without leading zeros, then, when there are places, a point and exactly
that many digits.
-/

namespace OpLang

/-- The non-negative decimal number `coefficient / 10 ^ places`. -/
structure Decimal where
  coefficient : Nat
  places : Nat
deriving DecidableEq, Repr, Inhabited

namespace Decimal

/-- The decimal spelled by the digits of its whole part and those after its point. -/
def ofDigits (whole fraction : List Char) : Decimal :=
  ⟨Nat.ofDigitChars 10 (whole ++ fraction) 0, fraction.length⟩

/-- The digits before the point, with no leading zero unless there is only one. -/
def wholeDigits (decimal : Decimal) : List Char :=
  Nat.toDigits 10 (decimal.coefficient / Nat.pow 10 decimal.places)

/-- The digits after the point, one for each place. -/
def fractionDigits (decimal : Decimal) : List Char :=
  (Nat.toDigits 10 (decimal.coefficient % Nat.pow 10 decimal.places)).leftpad decimal.places '0'

/-- The positional text of a decimal. -/
def text (decimal : Decimal) : List Char :=
  if decimal.places = 0 then decimal.wholeDigits
  else decimal.wholeDigits ++ '.' :: decimal.fractionDigits

end Decimal

end OpLang
