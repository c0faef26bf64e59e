import OpLang.Number.Shortest
import OpLang.Proofs.Number.Decimal
import OpLang.Proofs.Number.Nearest

/-! # Telling numbers from their text

The decimals that read back as a pattern are those between its midpoints with its neighbours, so no
decimal reads back as two. The decimal a number prints as reads back as its pattern; hence finite
numbers that are not negative are told apart by their text, and infinity is told from them by its
letters.
-/

namespace OpLang.Binary64

variable {pattern other : Nat} {decimal : Decimal}

/-- The decimals that read back as a pattern are those that it covers. -/
theorem readsBack_iff : readsBack pattern decimal = true ↔
    Covers pattern (decimal.coefficient * Nat.pow 2 1075) (Nat.pow 10 decimal.places) := by
  unfold readsBack
  split
  · next even =>
    rw [decide_eq_true_iff]
    exact ⟨fun ⟨below, above⟩ => ⟨below, above, fun odd => absurd even odd⟩,
      fun covers => ⟨covers.below, covers.above⟩⟩
  · next odd =>
    rw [decide_eq_true_iff]
    exact ⟨fun inside => ⟨inside.1.le, inside.2.le, fun _ => inside⟩,
      fun covers => covers.strictly odd⟩

/-- A decimal reads back as one pattern at most. -/
theorem readsBack_unique (reads : readsBack pattern decimal = true)
    (readsOther : readsBack other decimal = true) : pattern = other :=
  (readsBack_iff.mp reads).unique (Nat.pow_pos (by decide)) (readsBack_iff.mp readsOther)

/-- Only decimals that read back are found on a grid. -/
theorem readsBack_of_closest? {grid : Grid} (found : grid.closest? pattern = some decimal) :
    readsBack pattern decimal = true := by
  unfold Grid.closest? at found
  simp only at found
  split at found
  · next lower upper =>
    split at found
    · exact Option.some.inj found ▸ lower
    · exact Option.some.inj found ▸ upper
  · next lower _ => exact Option.some.inj found ▸ lower
  · next _ upper => exact Option.some.inj found ▸ upper
  · contradiction

/-- A decimal that is the value of a pattern reads back as the pattern. -/
theorem readsBack_of_value (value : decimal.coefficient * Nat.pow 2 1075 =
    (scaled pattern + scaled pattern) * Nat.pow 10 decimal.places) :
    readsBack pattern decimal = true := by
  have positive : 0 < Nat.pow 10 decimal.places := Nat.pow_pos (by decide)
  have above := Nat.mul_lt_mul_of_pos_right
    (Nat.add_lt_add_left (scaled_lt_succ pattern) (scaled pattern)) positive
  refine readsBack_iff.mpr (.of_lower positive ?_ (.inl ?_))
  · rw [value, Nat.two_mul]
  · rwa [value]

/-- The value of a pattern, in units of a power of two, with as many places as that power. -/
theorem value_of_units (units count next : Nat) (succ : next = count + 1) :
    units * Nat.pow 5 count * Nat.pow 2 next = (units + units) * Nat.pow 10 count := by
  have ten : Nat.pow 10 count = Nat.pow 5 count * Nat.pow 2 count := Nat.mul_pow 5 2 count
  have doubled : Nat.pow 2 (count + 1) = 2 * Nat.pow 2 count := Nat.pow_succ'
  rw [succ, doubled, ten]
  ring

/-- The decimal a pattern prints as reads back as the pattern. -/
theorem readsBack_shortest (pattern : Nat) : readsBack pattern (shortest pattern) = true := by
  unfold shortest
  split
  · next zero =>
    subst zero
    exact readsBack_of_value (by rw [Nat.zero_mul]; rfl)
  · next =>
    cases search : (grids (scaled pattern)).findSome? (·.closest? pattern) with
    | none => exact readsBack_of_value (value_of_units _ 1074 1075 rfl)
    | some found =>
      obtain ⟨grid, _, closest⟩ := List.exists_of_findSome?_eq_some search
      exact readsBack_of_closest? closest

/-- Below infinity, patterns are told apart by the decimals they print as. -/
theorem shortest_injective (same : shortest pattern = shortest other) : pattern = other := by
  have reads := readsBack_shortest pattern
  rw [same] at reads
  exact readsBack_unique reads (readsBack_shortest other)

variable {number left right : Binary64}

theorem chars_eq (positive : number.isNegative = false) (finite : number.isFinite = true) :
    number.chars = (shortest number.magnitude).text := by
  have below : number.magnitude < infinityPattern := of_decide_eq_true finite
  have real : number.isNaN = false := decide_eq_false (Nat.not_lt.mpr below.le)
  rw [chars, real, positive, finite]
  rfl

/-- Finite numbers that are not negative are told apart by their text. -/
theorem eq_of_chars_eq (positive : left.isNegative = false) (finite : left.isFinite = true)
    (positive' : right.isNegative = false) (finite' : right.isFinite = true)
    (same : left.chars = right.chars) : left = right := by
  rw [chars_eq positive finite, chars_eq positive' finite'] at same
  exact eq_of_magnitude positive positive' (shortest_injective (Decimal.text_injective same))

/-- The text of such a number is a literal that spells a number in the usual way. -/
theorem isPlain_chars (positive : number.isNegative = false) (finite : number.isFinite = true) :
    IsPlain number.chars := by
  rw [chars_eq positive finite]
  exact Decimal.isPlain_text _

theorem chars_of_infinite (positive : number.isNegative = false) (real : number.isNaN = false)
    (infinite : number.isFinite = false) : number.chars = ['i', 'n', 'f'] := by
  rw [chars, real, positive, infinite]
  rfl

theorem magnitude_of_infinite (real : number.isNaN = false) (infinite : number.isFinite = false) :
    number.magnitude = infinityPattern :=
  Nat.le_antisymm (Nat.le_of_not_lt (of_decide_eq_false real))
    (Nat.le_of_not_lt (of_decide_eq_false infinite))

/-- Digits and points do not spell infinity. -/
theorem chars_ne_of_infinite (positive : left.isNegative = false) (finite : left.isFinite = true)
    (positive' : right.isNegative = false) (real' : right.isNaN = false)
    (infinite' : right.isFinite = false) : left.chars ≠ right.chars := by
  intro same
  have parts := List.all_eq_true.mp (isPlain_chars positive finite).parts
  rw [same, chars_of_infinite positive' real' infinite'] at parts
  exact absurd (parts 'i' List.mem_cons_self) (by decide)

/-- Numbers that are not negative, infinity among them, are told apart by their text. -/
theorem eq_of_chars_eq_of_real (positive : left.isNegative = false) (real : left.isNaN = false)
    (positive' : right.isNegative = false) (real' : right.isNaN = false)
    (same : left.chars = right.chars) : left = right := by
  cases finite : left.isFinite <;> cases finite' : right.isFinite
  · exact eq_of_magnitude positive positive'
      ((magnitude_of_infinite real finite).trans (magnitude_of_infinite real' finite').symm)
  · exact absurd same.symm (chars_ne_of_infinite positive' finite' positive real finite)
  · exact absurd same (chars_ne_of_infinite positive finite positive' real' finite')
  · exact eq_of_chars_eq positive finite positive' finite' same

end OpLang.Binary64
