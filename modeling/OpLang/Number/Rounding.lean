import OpLang.Number.Binary64

/-! # Rounding a quotient to the nearest binary64 number

A non-negative rational is rounded to the closest representable number, halves going to the even
significand, and to infinity from halfway past the largest finite number on.
-/

namespace OpLang

/-- The natural number closest to `numerator / denominator`, the even one of two equally close. -/
def roundHalfEven (numerator denominator : Nat) : Nat :=
  let quotient := numerator / denominator
  let twice := 2 * (numerator % denominator)
  if twice < denominator then quotient
  else if twice = denominator then quotient + quotient % 2
  else quotient + 1

namespace Binary64

/-- How many low bits of a value of so many units of `2 ^ -1074` fall below its 53-bit
significand. -/
def droppedBits (units : Nat) : Nat := if units < Nat.pow 2 53 then 0 else units.log2 - 52

/-- The pattern of the number nearest to `numerator / denominator`. A significand that rounds up to
`2 ^ 53` carries into the exponent, which is the same addition. -/
def nearestPattern (numerator denominator : Nat) : Nat :=
  let units := numerator * Nat.pow 2 1074
  let dropped := droppedBits (units / denominator)
  let significand := roundHalfEven units (denominator * Nat.pow 2 dropped)
  min (dropped * Nat.pow 2 52 + significand) infinityPattern

/-- The number nearest to the rational `numerator / denominator`. -/
def nearest (numerator denominator : Nat) : Binary64 :=
  ⟨UInt64.ofNat (nearestPattern numerator denominator)⟩

end Binary64

end OpLang
