/-! # Binary64 numbers by their bits

A number is its 64-bit pattern, so two numbers are the same value of the type exactly when their
patterns agree. A pattern whose sign bit is clear stands for the exact rational
`scaled pattern / 2 ^ 1074`; that reading lets finite numbers be measured in natural numbers.
-/

namespace OpLang

/-- A binary64 number, held as its bit pattern. -/
structure Binary64 where
  bits : UInt64
deriving DecidableEq, Repr, Inhabited

namespace Binary64

/-- The pattern of positive infinity; the patterns above it are not numbers. -/
def infinityPattern : Nat := 2047 * Nat.pow 2 52

/-- Positive zero. -/
def zero : Binary64 := ⟨0⟩

/-- The sign bit. -/
def isNegative (number : Binary64) : Bool := decide (Nat.pow 2 63 ≤ number.bits.toNat)

/-- The pattern with its sign bit cleared. -/
def magnitude (number : Binary64) : Nat := number.bits.toNat % Nat.pow 2 63

/-- A pattern past infinity is not a number. -/
def isNaN (number : Binary64) : Bool := decide (infinityPattern < number.magnitude)

/-- Finite numbers lie below infinity, whatever their sign. -/
def isFinite (number : Binary64) : Bool := decide (number.magnitude < infinityPattern)

/-- The exact value of a pattern with a clear sign bit, in units of `2 ^ -1074`. At the pattern of
infinity it is `2 ^ 1024`, the value the next finite number would have. -/
def scaled (pattern : Nat) : Nat :=
  if pattern / Nat.pow 2 52 = 0 then pattern
  else (Nat.pow 2 52 + pattern % Nat.pow 2 52) * Nat.pow 2 (pattern / Nat.pow 2 52 - 1)

/-- Equality of values: a pattern that is not a number equals nothing, and the two zeros agree. -/
def equals (left right : Binary64) : Bool :=
  !left.isNaN && !right.isNaN &&
    (left == right || (left.magnitude == 0 && right.magnitude == 0))

end Binary64

end OpLang
