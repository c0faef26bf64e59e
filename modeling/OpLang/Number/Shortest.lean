import OpLang.Number.Binary64
import OpLang.Number.Decimal

/-! # Shortest decimal text of a binary64 number

A finite number prints as the decimal with the fewest digits among those that lie closer to it than
to any other number, written out in full: there is never an exponent, and a whole number has no
point. Grids of decimals are searched from the coarsest on, and on each grid only the two
neighbours of the number matter.
-/

namespace OpLang.Binary64

/-- The multiples of `multiple / 10 ^ places`. -/
structure Grid where
  multiple : Nat
  places : Nat
deriving DecidableEq, Repr

/-- The largest point of the grid not above `units / 2 ^ 1074`, counted in steps. -/
def Grid.floor (grid : Grid) (units : Nat) : Nat :=
  units * Nat.pow 10 grid.places / (grid.multiple * Nat.pow 2 1074)

/-- The grid's point after so many steps from zero. -/
def Grid.point (grid : Grid) (steps : Nat) : Decimal := ⟨steps * grid.multiple, grid.places⟩

/-- The decimals that read back as a pattern: those between its midpoints with its neighbours, and
the midpoints themselves when the significand is even. -/
def readsBack (pattern : Nat) (decimal : Decimal) : Bool :=
  let below := (scaled (pattern - 1) + scaled pattern) * Nat.pow 10 decimal.places
  let above := (scaled pattern + scaled (pattern + 1)) * Nat.pow 10 decimal.places
  let value := decimal.coefficient * Nat.pow 2 1075
  if pattern % 2 = 0 then decide (below ≤ value ∧ value ≤ above)
  else decide (below < value ∧ value < above)

/-- The point of a grid that reads back as the pattern, if there is one. Of two the nearer is
taken, and the upper one when the number lies halfway. -/
def Grid.closest? (grid : Grid) (pattern : Nat) : Option Decimal :=
  let units := scaled pattern
  let steps := grid.floor units
  let lower := grid.point steps
  let upper := grid.point (steps + 1)
  match readsBack pattern lower, readsBack pattern upper with
  | true, true =>
    let halfway := (2 * steps + 1) * grid.multiple * Nat.pow 2 1074
    if units * Nat.pow 10 grid.places * 2 < halfway then lower else upper
  | true, false => lower
  | false, true => upper
  | false, false => none

/-- The grids that may hold the shortest decimal of a value, coarsest first. -/
def grids (units : Nat) : List Grid :=
  let wholeDigits := (Nat.toDigits 10 (units / Nat.pow 2 1074)).length
  (List.range (wholeDigits + 1)).reverse.map (fun zeros => ⟨Nat.pow 10 zeros, 0⟩) ++
    (List.range 1074).map (fun places => ⟨1, places + 1⟩)

/-- The shortest decimal that reads back as a pattern below infinity. The value itself, which has
1074 places, stands behind the search. -/
def shortest (pattern : Nat) : Decimal :=
  if pattern = 0 then ⟨0, 0⟩
  else ((grids (scaled pattern)).findSome? (·.closest? pattern)).getD
    ⟨scaled pattern * Nat.pow 5 1074, 1074⟩

/-- The characters that print a number. -/
def chars (number : Binary64) : List Char :=
  if number.isNaN then ['N', 'a', 'N']
  else
    let magnitude :=
      if number.isFinite then (shortest number.magnitude).text else ['i', 'n', 'f']
    if number.isNegative then '-' :: magnitude else magnitude

/-- The text of a number. -/
def text (number : Binary64) : String := String.ofList number.chars

instance : ToString Binary64 := ⟨text⟩

end OpLang.Binary64
