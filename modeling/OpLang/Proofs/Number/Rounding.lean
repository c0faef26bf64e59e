import Mathlib.Order.Monotone.Basic
import Mathlib.Tactic.Ring
import OpLang.Number.Rounding

/-! # Midpoints between neighbouring numbers

The values of patterns grow with the patterns, so each quotient lies between the values of two
neighbours and belongs to the nearer one of them; the midpoint of two neighbours belongs to the even
one. A pattern therefore covers what lies between its midpoints with the patterns next to it, and
no quotient is covered twice. Dropping the bits below the significand and rounding half to even
finds the pattern that covers a quotient, where infinity and the patterns past it go on as if they
were finite.
-/

namespace OpLang

/-- Rounding half to even goes down below the half and up above it, and at the half to the even
neighbour. -/
theorem roundHalfEven_cases (numerator denominator : Nat) :
    (roundHalfEven numerator denominator = numerator / denominator ∧
        (2 * numerator < (2 * (numerator / denominator) + 1) * denominator ∨
          2 * numerator = (2 * (numerator / denominator) + 1) * denominator ∧
            numerator / denominator % 2 = 0)) ∨
      roundHalfEven numerator denominator = numerator / denominator + 1 ∧
        ((2 * (numerator / denominator) + 1) * denominator < 2 * numerator ∨
          2 * numerator = (2 * (numerator / denominator) + 1) * denominator ∧
            numerator / denominator % 2 ≠ 0) := by
  have parts := Nat.div_add_mod numerator denominator
  have half : (2 * (numerator / denominator) + 1) * denominator =
      2 * (denominator * (numerator / denominator)) + denominator := by ring
  rw [half]
  unfold roundHalfEven
  dsimp only
  split
  · exact .inl ⟨rfl, .inl (by omega)⟩
  · split
    · by_cases even : numerator / denominator % 2 = 0
      · exact .inl ⟨by omega, .inr ⟨by omega, even⟩⟩
      · exact .inr ⟨by omega, .inr ⟨by omega, even⟩⟩
    · exact .inr ⟨rfl, .inl (by omega)⟩

namespace Binary64

variable {pattern other halves denominator : Nat}

/-! ### Values of patterns -/

/-- A fraction that is full carries into the exponent, and the value goes on growing. -/
theorem scaled_lt_succ (pattern : Nat) : scaled pattern < scaled (pattern + 1) := by
  have positive : 0 < Nat.pow 2 52 := by decide
  unfold scaled
  generalize Nat.pow 2 52 = unit at *
  have parts := Nat.mod_add_div pattern unit
  have bounded := Nat.mod_lt pattern positive
  generalize pattern / unit = exponent at *
  generalize pattern % unit = fraction at *
  by_cases full : fraction + 1 < unit
  · have next : fraction + 1 + unit * exponent = pattern + 1 := by omega
    obtain ⟨quotient, remainder⟩ := (Nat.div_mod_unique positive).mpr ⟨next, full⟩
    rw [quotient, remainder]
    split
    · omega
    · exact Nat.mul_lt_mul_of_pos_right (by omega) (Nat.pow_pos (by decide))
  · have next : 0 + unit * (exponent + 1) = pattern + 1 := by
      rw [Nat.mul_succ]
      omega
    obtain ⟨quotient, remainder⟩ := (Nat.div_mod_unique positive).mpr ⟨next, positive⟩
    rw [quotient, remainder, if_neg (Nat.succ_ne_zero exponent)]
    obtain _ | lower := exponent
    · have small : pattern < unit := by omega
      simpa using small
    · rw [if_neg (Nat.succ_ne_zero lower)]
      have doubled : Nat.pow 2 (lower + 1) = 2 * Nat.pow 2 lower := Nat.pow_succ'
      have below : (unit + fraction) * Nat.pow 2 lower < 2 * unit * Nat.pow 2 lower :=
        Nat.mul_lt_mul_of_pos_right (by omega) (Nat.pow_pos (by decide))
      calc (unit + fraction) * Nat.pow 2 lower < 2 * unit * Nat.pow 2 lower := below
        _ = (unit + 0) * Nat.pow 2 (lower + 1) := by rw [doubled]; ring

theorem scaled_strictMono : StrictMono scaled := strictMono_nat_of_lt_succ scaled_lt_succ

/-- A significand of 53 bits, of fewer bits if none has been dropped, is put together with the count
of dropped bits. One that has been rounded up to `2 ^ 53` carries into the exponent. -/
theorem scaled_of_significand {dropped significand : Nat} (bounded : significand ≤ Nat.pow 2 53)
    (normal : dropped = 0 ∨ Nat.pow 2 52 ≤ significand) :
    scaled (dropped * Nat.pow 2 52 + significand) = significand * Nat.pow 2 dropped := by
  have double : Nat.pow 2 53 = 2 * Nat.pow 2 52 := Nat.pow_succ'
  have positive : 0 < Nat.pow 2 52 := by decide
  unfold scaled
  generalize Nat.pow 2 52 = unit at *
  rcases Nat.lt_or_ge significand unit with subnormal | carried
  · obtain rfl : dropped = 0 := normal.resolve_right (by omega)
    have whole : significand + unit * 0 = 0 * unit + significand := by omega
    obtain ⟨quotient, _⟩ := (Nat.div_mod_unique positive).mpr ⟨whole, subnormal⟩
    have one : Nat.pow 2 0 = 1 := rfl
    rw [quotient, if_pos rfl, one]
    omega
  · rcases Nat.lt_or_eq_of_le bounded with less | full
    · have whole : significand - unit + unit * (dropped + 1) = dropped * unit + significand := by
        rw [Nat.mul_succ, Nat.mul_comm dropped]
        omega
      obtain ⟨quotient, remainder⟩ := (Nat.div_mod_unique positive).mpr ⟨whole, by omega⟩
      have same : unit + (significand - unit) = significand := by omega
      rw [quotient, remainder, if_neg (Nat.succ_ne_zero dropped), same]
      rfl
    · have whole : 0 + unit * (dropped + 2) = dropped * unit + significand := by
        rw [Nat.mul_comm dropped, full, double]
        ring
      obtain ⟨quotient, remainder⟩ := (Nat.div_mod_unique positive).mpr ⟨whole, positive⟩
      have doubled : Nat.pow 2 (dropped + 1) = 2 * Nat.pow 2 dropped := Nat.pow_succ'
      rw [quotient, remainder, if_neg (Nat.succ_ne_zero (dropped + 1))]
      calc (unit + 0) * Nat.pow 2 (dropped + 1) = 2 * unit * Nat.pow 2 dropped := by
            rw [doubled]; ring
        _ = significand * Nat.pow 2 dropped := by rw [full, double]

/-! ### Midpoints -/

/-- A quotient is covered by a pattern if it lies between the midpoints with the patterns next to
it, and strictly so if the pattern is odd. It is given in halves of the unit that values are
measured in, so the midpoints are whole numbers. -/
structure Covers (pattern halves denominator : Nat) : Prop where
  below : (scaled (pattern - 1) + scaled pattern) * denominator ≤ halves
  above : halves ≤ (scaled pattern + scaled (pattern + 1)) * denominator
  strictly : pattern % 2 ≠ 0 →
    (scaled (pattern - 1) + scaled pattern) * denominator < halves ∧
      halves < (scaled pattern + scaled (pattern + 1)) * denominator

/-- What a pattern covers, none above it covers. The midpoint between two neighbours belongs to the
even one of them. -/
theorem Covers.not_of_lt (positive : 0 < denominator) (less : pattern < other)
    (covers : Covers pattern halves denominator) : ¬ Covers other halves denominator := by
  intro covers'
  have low : scaled pattern ≤ scaled (other - 1) := scaled_strictMono.monotone (by omega)
  have high : scaled (pattern + 1) ≤ scaled other := scaled_strictMono.monotone less
  have ordered := Nat.mul_le_mul_right denominator (Nat.add_le_add low high)
  have above := covers.above
  have below := covers'.below
  by_cases even : pattern % 2 = 0
  · by_cases evenOther : other % 2 = 0
    · have apart : scaled (pattern + 1) < scaled other := scaled_strictMono (by omega)
      have strictly := Nat.mul_lt_mul_of_pos_right (Nat.add_lt_add_of_le_of_lt low apart) positive
      omega
    · have below := (covers'.strictly evenOther).1
      omega
  · have above := (covers.strictly even).2
    omega

/-- A quotient is covered by one pattern at most. -/
theorem Covers.unique (positive : 0 < denominator) (covers : Covers pattern halves denominator)
    (covers' : Covers other halves denominator) : pattern = other := by
  rcases Nat.lt_trichotomy pattern other with less | same | more
  · exact absurd covers' (covers.not_of_lt positive less)
  · exact same
  · exact absurd covers (covers'.not_of_lt positive more)

/-- A quotient from the value of a pattern on, up to the midpoint with the next one. -/
theorem Covers.of_lower (positive : 0 < denominator)
    (least : 2 * scaled pattern * denominator ≤ halves)
    (half : halves < (scaled pattern + scaled (pattern + 1)) * denominator ∨
      halves = (scaled pattern + scaled (pattern + 1)) * denominator ∧
        pattern % 2 = 0) : Covers pattern halves denominator := by
  have double : 2 * scaled pattern = scaled pattern + scaled pattern := Nat.two_mul _
  rw [double] at least
  refine ⟨?_, by omega, fun odd => ⟨?_, by omega⟩⟩
  · have before : scaled (pattern - 1) ≤ scaled pattern :=
      scaled_strictMono.monotone (Nat.sub_le _ _)
    exact (Nat.mul_le_mul_right _ (Nat.add_le_add_right before _)).trans least
  · have before : scaled (pattern - 1) < scaled pattern := scaled_strictMono (by omega)
    exact (Nat.mul_lt_mul_of_pos_right (Nat.add_lt_add_right before _) positive).trans_le least

/-- A quotient from the midpoint of a pattern with the next one on, up to the value of that one. -/
theorem Covers.of_upper (positive : 0 < denominator)
    (most : halves < 2 * scaled (pattern + 1) * denominator)
    (half : (scaled pattern + scaled (pattern + 1)) * denominator < halves ∨
      halves = (scaled pattern + scaled (pattern + 1)) * denominator ∧
        pattern % 2 ≠ 0) : Covers (pattern + 1) halves denominator := by
  have behind := Nat.mul_lt_mul_of_pos_right
    (Nat.add_lt_add_left (scaled_lt_succ (pattern + 1)) (scaled (pattern + 1))) positive
  rw [Nat.two_mul] at most
  refine ⟨?_, by omega, fun odd => ⟨?_, by omega⟩⟩
  · rw [Nat.add_sub_cancel]
    omega
  · rw [Nat.add_sub_cancel]
    omega

/-! ### Finding the pattern that covers a quotient -/

/-- The significand has 53 bits, or fewer if no bit is dropped. -/
theorem quotient_bounds (units denominator : Nat) :
    let dropped := droppedBits (units / denominator)
    let significand := units / (denominator * Nat.pow 2 dropped)
    significand < Nat.pow 2 53 ∧ (dropped = 0 ∨ Nat.pow 2 52 ≤ significand) := by
  intro dropped significand
  have whole : significand = units / denominator / Nat.pow 2 dropped :=
    (Nat.div_div_eq_div_mul _ _ _).symm
  rw [whole]
  simp only [dropped]
  generalize units / denominator = quotient
  have some : 0 < Nat.pow 2 (droppedBits quotient) := Nat.pow_pos (by decide)
  unfold droppedBits at some ⊢
  split
  · next small => exact ⟨(Nat.div_le_self _ _).trans_lt small, .inl rfl⟩
  · next large =>
    rw [if_neg large] at some
    have filled : quotient ≠ 0 := by
      rintro rfl
      exact large (Nat.pow_pos (by decide))
    have bits : 53 ≤ quotient.log2 := (Nat.le_log2 filled).mpr (Nat.le_of_not_lt large)
    have least : Nat.pow 2 52 * Nat.pow 2 (quotient.log2 - 52) ≤ quotient := by
      have same : Nat.pow 2 52 * Nat.pow 2 (quotient.log2 - 52) = 2 ^ quotient.log2 := by
        have sum : 52 + (quotient.log2 - 52) = quotient.log2 := by omega
        exact (Nat.pow_add 2 52 _).symm.trans (congrArg (2 ^ ·) sum)
      exact same.trans_le (Nat.log2_self_le filled)
    have most : quotient < Nat.pow 2 53 * Nat.pow 2 (quotient.log2 - 52) := by
      have same : Nat.pow 2 53 * Nat.pow 2 (quotient.log2 - 52) = 2 ^ (quotient.log2 + 1) := by
        have sum : 53 + (quotient.log2 - 52) = quotient.log2 + 1 := by omega
        exact (Nat.pow_add 2 53 _).symm.trans (congrArg (2 ^ ·) sum)
      exact Nat.lt_log2_self.trans_eq same.symm
    exact ⟨(Nat.div_lt_iff_lt_mul some).mpr most, .inr ((Nat.le_div_iff_mul_le some).mpr least)⟩

/-- The pattern of a rounded quotient, if the patterns went on past infinity. -/
def unboundedPattern (numerator denominator : Nat) : Nat :=
  let units := numerator * Nat.pow 2 1074
  let dropped := droppedBits (units / denominator)
  dropped * Nat.pow 2 52 + roundHalfEven units (denominator * Nat.pow 2 dropped)

theorem nearestPattern_eq (numerator denominator : Nat) :
    nearestPattern numerator denominator =
      min (unboundedPattern numerator denominator) infinityPattern := rfl

theorem two_pow_succ (count next : Nat) (succ : next = count + 1) :
    Nat.pow 2 next = 2 * Nat.pow 2 count := by
  subst succ
  exact Nat.pow_succ'

/-- A significand that is rounded half to even leads to the pattern that covers the quotient. -/
theorem covers_of_significand {units dropped : Nat} (positive : 0 < denominator)
    (twice : halves = 2 * units)
    (bounded : units / (denominator * Nat.pow 2 dropped) < Nat.pow 2 53)
    (normal : dropped = 0 ∨ Nat.pow 2 52 ≤ units / (denominator * Nat.pow 2 dropped)) :
    Covers (dropped * Nat.pow 2 52 + roundHalfEven units (denominator * Nat.pow 2 dropped))
      halves denominator := by
  have some : 0 < denominator * Nat.pow 2 dropped :=
    Nat.mul_pos positive (Nat.pow_pos (by decide))
  have least := Nat.div_mul_le_self units (denominator * Nat.pow 2 dropped)
  have most := Nat.lt_mul_div_succ units some
  have rounds := roundHalfEven_cases units (denominator * Nat.pow 2 dropped)
  generalize units / (denominator * Nat.pow 2 dropped) = quotient at *
  have lower := scaled_of_significand bounded.le normal
  have upper : scaled (dropped * Nat.pow 2 52 + (quotient + 1)) =
      (quotient + 1) * Nat.pow 2 dropped :=
    scaled_of_significand bounded (normal.imp_right Nat.le_succ_of_le)
  rw [← Nat.add_assoc] at upper
  have half : (scaled (dropped * Nat.pow 2 52 + quotient) +
      scaled (dropped * Nat.pow 2 52 + quotient + 1)) * denominator =
        (2 * quotient + 1) * (denominator * Nat.pow 2 dropped) := by
    rw [lower, upper]
    ring
  -- The bits of the exponent do not change whether the pattern is even.
  have parity : (dropped * Nat.pow 2 52 + quotient) % 2 = quotient % 2 := by
    have double : Nat.pow 2 52 = 2 * Nat.pow 2 51 := rfl
    rw [double, Nat.mul_left_comm, Nat.mul_add_mod]
  rw [← half, ← twice, ← parity] at rounds
  rcases rounds with ⟨down, half⟩ | ⟨up, half⟩
  · rw [down]
    refine .of_lower positive ?_ half
    calc 2 * scaled (dropped * Nat.pow 2 52 + quotient) * denominator
        = 2 * (quotient * (denominator * Nat.pow 2 dropped)) := by rw [lower]; ring
      _ ≤ halves := twice ▸ Nat.mul_le_mul_left 2 least
  · rw [up, ← Nat.add_assoc]
    refine .of_upper positive ?_ half
    calc halves
        < 2 * (denominator * Nat.pow 2 dropped * (quotient + 1)) :=
          twice ▸ Nat.mul_lt_mul_of_pos_left most (by decide)
      _ = 2 * scaled (dropped * Nat.pow 2 52 + quotient + 1) * denominator := by rw [upper]; ring

/-- Rounding leads to the pattern that covers the quotient. -/
theorem covers_unboundedPattern (numerator : Nat) (positive : 0 < denominator) :
    Covers (unboundedPattern numerator denominator) (numerator * Nat.pow 2 1075)
      denominator := by
  obtain ⟨bounded, normal⟩ := quotient_bounds (numerator * Nat.pow 2 1074) denominator
  refine covers_of_significand positive ?_ bounded normal
  exact (congrArg _ (two_pow_succ 1074 1075 rfl)).trans (Nat.mul_left_comm _ _ _)

end Binary64

end OpLang
