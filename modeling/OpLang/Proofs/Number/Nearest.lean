import Mathlib.Algebra.Order.Field.Rat
import Mathlib.Tactic.FieldSimp
import Mathlib.Tactic.Linarith
import OpLang.Proofs.Number.Rounding

/-! # Correct rounding

A rational number that is not negative is rounded correctly to the finite number next to it, and to
the even one of two that are equally near. Halfway from the largest finite number to the next power
of two infinity begins. Each rational number is rounded to one number only, and dividing with
`nearest` rounds correctly.
-/

namespace OpLang.Binary64

/-- The smallest positive number; all finite numbers are multiples of it. -/
def unit : ℚ := (2 ^ 1074)⁻¹

/-- The value of a pattern that has no sign. -/
def level (pattern : Nat) : ℚ := scaled pattern * unit

/-- The rational number that a finite number stands for. -/
def rational (number : Binary64) : ℚ :=
  if number.isNegative then -level number.magnitude else level number.magnitude

/-- Where infinity begins: halfway from the largest finite number to the next power of two. -/
def overflow : ℚ := 2 ^ 1024 - 2 ^ 970

/-- Positive infinity. -/
def infinity : Binary64 := ⟨UInt64.ofNat infinityPattern⟩

/-- A rational number that is not negative is rounded to a number. Every finite number, whatever its
sign, is at least as far away, and if one of another value is as near, the number is even. -/
inductive Rounds (exact : ℚ) : Binary64 → Prop where
  | infinite (beyond : overflow ≤ exact) : Rounds exact infinity
  | finite {number : Binary64} (within : exact < overflow) (finite : number.isFinite = true)
    (positive : number.isNegative = false)
    (nearest : ∀ other : Binary64, other.isFinite = true →
      |exact - number.rational| ≤ |exact - other.rational|)
    (even : ∀ other : Binary64, other.isFinite = true → other.rational ≠ number.rational →
      |exact - number.rational| = |exact - other.rational| → number.magnitude % 2 = 0) :
    Rounds exact number

variable {pattern other : Nat} {exact : ℚ} {number : Binary64}

/-! ### Levels of patterns -/

theorem unit_pos : 0 < unit := inv_pos.mpr (pow_pos (by decide) 1074)

theorem level_strictMono : StrictMono level := fun _ _ less =>
  mul_lt_mul_of_pos_right (Nat.cast_lt.mpr (scaled_strictMono less)) unit_pos

theorem level_zero : level 0 = 0 := by
  have zero : scaled 0 = 0 := rfl
  rw [level, zero, Nat.cast_zero, zero_mul]

theorem level_nonneg (pattern : Nat) : 0 ≤ level pattern :=
  level_zero ▸ level_strictMono.monotone (Nat.zero_le pattern)

theorem rational_of_positive (positive : number.isNegative = false) :
    number.rational = level number.magnitude := by
  rw [rational, positive]
  rfl

/-- A pattern below the sign bit is the magnitude of a number that is not negative. -/
theorem of_pattern (small : pattern < Nat.pow 2 63) :
    (⟨UInt64.ofNat pattern⟩ : Binary64).isNegative = false ∧
      (⟨UInt64.ofNat pattern⟩ : Binary64).magnitude = pattern := by
  have whole : (UInt64.ofNat pattern).toNat = pattern :=
    UInt64.toNat_ofNat_of_lt (small.trans (by decide))
  constructor
  · rw [isNegative, whole]
    exact decide_eq_false (Nat.not_le.mpr small)
  · rw [magnitude, whole]
    exact Nat.mod_eq_of_lt small

theorem infinityPattern_lt : infinityPattern < Nat.pow 2 63 := by decide

theorem isFinite_of_pattern (below : pattern < infinityPattern) :
    (⟨UInt64.ofNat pattern⟩ : Binary64).isFinite = true := by
  rw [isFinite, (of_pattern (below.trans infinityPattern_lt)).2]
  exact decide_eq_true below

/-- What is rounded has no sign. -/
theorem Rounds.isNegative (rounds : Rounds exact number) : number.isNegative = false := by
  cases rounds with
  | infinite => exact (of_pattern infinityPattern_lt).1
  | finite _ _ positive => exact positive

theorem Rounds.isNaN (rounds : Rounds exact number) : number.isNaN = false := by
  have atMost : number.magnitude ≤ infinityPattern := by
    cases rounds with
    | infinite => exact (of_pattern infinityPattern_lt).2.le
    | finite _ finite => exact (of_decide_eq_true finite).le
  exact decide_eq_false (Nat.not_lt.mpr atMost)

/-- For a rational number that is not negative, some number without a sign is as near as any. -/
theorem exists_as_near (nonneg : 0 ≤ exact) (number : Binary64) :
    ∃ pattern, |exact - level pattern| ≤ |exact - number.rational| ∧
      (|exact - level pattern| = |exact - number.rational| → level pattern = number.rational) := by
  cases sign : number.isNegative with
  | false =>
    rw [rational_of_positive sign]
    exact ⟨number.magnitude, le_rfl, fun _ => rfl⟩
  | true =>
    have mirrored : number.rational = -level number.magnitude := by
      rw [rational, sign]
      rfl
    have size := level_nonneg number.magnitude
    rw [mirrored, sub_neg_eq_add, abs_of_nonneg (add_nonneg nonneg size)]
    refine ⟨0, ?_, ?_⟩ <;> rw [level_zero, sub_zero, abs_of_nonneg nonneg]
    · linarith
    · intro same
      linarith

/-! ### Midpoints of rational numbers -/

/-- What lies between the midpoints of a pattern with its neighbours is nowhere nearer. -/
theorem nearest_of_midpoints (below : level (pattern - 1) + level pattern ≤ 2 * exact)
    (above : 2 * exact ≤ level pattern + level (pattern + 1)) (other : Nat) :
    |exact - level pattern| ≤ |exact - level other| := by
  rcases Nat.lt_trichotomy other pattern with less | same | more
  · have before : level other ≤ level (pattern - 1) := level_strictMono.monotone (by omega)
    have apart : level other < level pattern := level_strictMono less
    have near : |exact - level pattern| ≤ exact - level other :=
      abs_le.mpr ⟨by linarith, by linarith⟩
    exact near.trans (le_abs_self _)
  · rw [same]
  · have behind : level (pattern + 1) ≤ level other := level_strictMono.monotone more
    have apart : level pattern < level other := level_strictMono more
    have near : |exact - level pattern| ≤ level other - exact :=
      abs_le.mpr ⟨by linarith, by linarith⟩
    rw [abs_sub_comm exact (level other)]
    exact near.trans (le_abs_self _)

/-- Between two values that are equally near lies their midpoint. -/
theorem midpoint_of_as_near (apart : other ≠ pattern)
    (same : |exact - level pattern| = |exact - level other|) :
    2 * exact = level pattern + level other := by
  rcases abs_eq_abs.mp same with equal | mirrored
  · exact absurd (level_strictMono.injective (by linarith)) apart
  · linarith

/-- Strictly between its midpoints a pattern is the only nearest one. -/
theorem not_as_near_of_midpoints (below : level (pattern - 1) + level pattern < 2 * exact)
    (above : 2 * exact < level pattern + level (pattern + 1)) (apart : other ≠ pattern) :
    |exact - level pattern| ≠ |exact - level other| := by
  intro same
  have midpoint := midpoint_of_as_near apart same
  rcases Nat.lt_or_gt_of_ne apart with less | more
  · have before : level other ≤ level (pattern - 1) := level_strictMono.monotone (by omega)
    linarith
  · have behind : level (pattern + 1) ≤ level other := level_strictMono.monotone more
    linarith

/-! ### Where infinity begins -/

theorem cast_two_pow (count : Nat) : ((Nat.pow 2 count : ℕ) : ℚ) = 2 ^ count :=
  Nat.cast_pow 2 count

/-- Infinity begins at the midpoint of the largest finite number and the next power of two. -/
theorem two_mul_overflow : 2 * overflow = level (infinityPattern - 1) + level infinityPattern := by
  have last : infinityPattern - 1 = 2045 * Nat.pow 2 52 + (Nat.pow 2 53 - 1) := by decide
  have next : infinityPattern = 2045 * Nat.pow 2 52 + Nat.pow 2 53 := by decide
  have powers : (2 : ℚ) ^ 2045 = 2 ^ 971 * 2 ^ 1074 := pow_add 2 971 1074
  have half : (2 : ℚ) ^ 971 = 2 ^ 970 * 2 := pow_succ 2 970
  have top : (2 : ℚ) ^ 1024 = 2 ^ 54 * 2 ^ 970 := pow_add 2 54 970
  have nonzero : (2 : ℚ) ^ 1074 ≠ 0 := pow_ne_zero 1074 two_ne_zero
  have value (significand : Nat) : ((significand * Nat.pow 2 2045 : ℕ) : ℚ) * unit =
      significand * (2 ^ 970 * 2) := by
    rw [Nat.cast_mul, cast_two_pow 2045, unit, powers, half, mul_assoc,
      mul_inv_cancel_right₀ nonzero]
  rw [level, level, last, scaled_of_significand (by decide) (.inr (by decide)), value, next,
    scaled_of_significand (by decide) (.inr (by decide)), value, overflow, top]
  generalize (2 : ℚ) ^ 970 = power
  norm_num
  ring

/-- Below infinity the midpoint with the next number is below the beginning of infinity, but for the
last number, which is odd. -/
theorem two_mul_lt_overflow (finite : pattern < infinityPattern)
    (above : 2 * exact ≤ level pattern + level (pattern + 1))
    (strictly : pattern % 2 ≠ 0 → 2 * exact < level pattern + level (pattern + 1)) :
    exact < overflow := by
  have border := two_mul_overflow
  rcases Nat.lt_or_ge (pattern + 1) infinityPattern with less | last
  · have inside : level pattern < level (infinityPattern - 1) := level_strictMono (by omega)
    have behind : level (pattern + 1) < level infinityPattern := level_strictMono less
    linarith
  · have last : pattern = infinityPattern - 1 := by omega
    have next : infinityPattern - 1 + 1 = infinityPattern := rfl
    have below := strictly (last ▸ by decide)
    rw [last, next] at below
    linarith

/-! ### Rounding quotients -/

/-- Twice a quotient, in units. -/
theorem two_mul_quotient (numerator denominator : Nat) :
    2 * (numerator / denominator : ℚ) =
      ((numerator * Nat.pow 2 1075 : ℕ) : ℚ) / denominator * unit := by
  have double : (2 : ℚ) ^ 1075 = 2 ^ 1074 * 2 := pow_succ 2 1074
  have nonzero : (2 : ℚ) ^ 1074 ≠ 0 := pow_ne_zero 1074 two_ne_zero
  rw [Nat.cast_mul, cast_two_pow 1075, unit, double]
  generalize (2 : ℚ) ^ 1074 = power at *
  field_simp

theorem level_add (left right : Nat) :
    level left + level right = ((scaled left + scaled right : ℕ) : ℚ) * unit := by
  rw [level, level, Nat.cast_add, add_mul]

section

variable {numerator denominator left right : Nat} (positive : 0 < denominator)

include positive

theorem midpoint_le_iff : level left + level right ≤ 2 * (numerator / denominator : ℚ) ↔
    (scaled left + scaled right) * denominator ≤ numerator * Nat.pow 2 1075 := by
  rw [two_mul_quotient, level_add, mul_le_mul_iff_left₀ unit_pos,
    le_div_iff₀ (Nat.cast_pos.mpr positive), ← Nat.cast_mul, Nat.cast_le]

theorem le_midpoint_iff : 2 * (numerator / denominator : ℚ) ≤ level left + level right ↔
    numerator * Nat.pow 2 1075 ≤ (scaled left + scaled right) * denominator := by
  rw [two_mul_quotient, level_add, mul_le_mul_iff_left₀ unit_pos,
    div_le_iff₀ (Nat.cast_pos.mpr positive), ← Nat.cast_mul, Nat.cast_le]

/-- A quotient that a pattern covers lies between its midpoints. -/
theorem Covers.midpoints
    (covers : Covers pattern (numerator * Nat.pow 2 1075) denominator) :
    level (pattern - 1) + level pattern ≤ 2 * (numerator / denominator : ℚ) ∧
      2 * (numerator / denominator : ℚ) ≤ level pattern + level (pattern + 1) ∧
      (pattern % 2 ≠ 0 →
        level (pattern - 1) + level pattern < 2 * (numerator / denominator : ℚ) ∧
          2 * (numerator / denominator : ℚ) < level pattern + level (pattern + 1)) := by
  refine ⟨(midpoint_le_iff positive).mpr covers.below, (le_midpoint_iff positive).mpr covers.above,
    fun odd => ?_⟩
  obtain ⟨below, above⟩ := covers.strictly odd
  exact ⟨(lt_iff_lt_of_le_iff_le (le_midpoint_iff positive)).mpr below,
    (lt_iff_lt_of_le_iff_le (midpoint_le_iff positive)).mpr above⟩

/-- A quotient is rounded to the finite number whose pattern covers it. -/
theorem rounds_of_covers (finite : pattern < infinityPattern)
    (covers : Covers pattern (numerator * Nat.pow 2 1075) denominator) :
    Rounds (numerator / denominator) ⟨UInt64.ofNat pattern⟩ := by
  obtain ⟨below, above, strictly⟩ := covers.midpoints positive
  obtain ⟨sign, magnitude⟩ := of_pattern (finite.trans infinityPattern_lt)
  have value : (⟨UInt64.ofNat pattern⟩ : Binary64).rational = level pattern := by
    rw [rational_of_positive sign, magnitude]
  have nonneg : (0 : ℚ) ≤ numerator / denominator :=
    div_nonneg (Nat.cast_nonneg _) (Nat.cast_nonneg _)
  have nearest (other : Nat) := nearest_of_midpoints below above other
  refine .finite (two_mul_lt_overflow finite above fun odd => (strictly odd).2)
    (isFinite_of_pattern finite) sign (fun other _ => ?_) (fun other _ apart same => ?_)
  · rw [value]
    obtain ⟨near, closer, _⟩ := exists_as_near nonneg other
    exact (nearest near).trans closer
  · rw [value] at apart same
    rw [magnitude]
    by_contra odd
    obtain ⟨near, closer, equal⟩ := exists_as_near nonneg other
    have tie := le_antisymm (nearest near) (closer.trans same.ge)
    have other : near ≠ pattern := by
      rintro rfl
      exact apart (equal (tie.symm.trans same)).symm
    exact not_as_near_of_midpoints (strictly odd).1 (strictly odd).2 other tie

/-- Dividing rounds correctly. -/
theorem rounds_nearest : Rounds (numerator / denominator) (nearest numerator denominator) := by
  have covers := covers_unboundedPattern numerator positive
  rw [nearest, nearestPattern_eq]
  rcases Nat.lt_or_ge (unboundedPattern numerator denominator) infinityPattern with finite | past
  · rw [Nat.min_eq_left finite.le]
    exact rounds_of_covers positive finite covers
  · rw [Nat.min_eq_right past]
    refine .infinite ?_
    have border := two_mul_overflow
    have below := (covers.midpoints positive).1
    have last := level_strictMono.monotone (Nat.sub_le_sub_right past 1)
    have first := level_strictMono.monotone past
    linarith

end

/-! ### Uniqueness -/

/-- Between two even patterns that are equally near there is a nearer one. -/
theorem exists_nearer_between {left right : Nat} (less : left < right)
    (same : |exact - level left| = |exact - level right|) (evenLeft : left % 2 = 0)
    (evenRight : right % 2 = 0) :
    ∃ between < right, |exact - level between| < |exact - level left| := by
  have midpoint := midpoint_of_as_near less.ne' same
  have first : level left < level (left + 1) := level_strictMono (Nat.lt_succ_self left)
  have second : level (left + 1) < level right := level_strictMono (by omega)
  refine ⟨left + 1, by omega, ?_⟩
  rw [abs_of_nonneg (by linarith : 0 ≤ exact - level left)]
  exact abs_lt.mpr ⟨by linarith, by linarith⟩

theorem toNat_bits_eq (positive : number.isNegative = false) :
    number.bits.toNat = number.magnitude := by
  have below := of_decide_eq_false positive
  exact (Nat.mod_eq_of_lt (Nat.lt_of_not_le below)).symm

/-- Numbers without a sign are told apart by their patterns. -/
theorem eq_of_magnitude {left right : Binary64} (positive : left.isNegative = false)
    (positive' : right.isNegative = false) (same : left.magnitude = right.magnitude) :
    left = right := by
  rw [← toNat_bits_eq positive, ← toNat_bits_eq positive'] at same
  obtain ⟨bits⟩ := left
  obtain ⟨bits'⟩ := right
  exact congrArg mk (UInt64.toNat.inj same)

/-- A rational number is rounded to one number only. -/
theorem Rounds.unique {left right : Binary64} (rounds : Rounds exact left)
    (rounds' : Rounds exact right) : left = right := by
  cases rounds with
  | infinite beyond =>
    cases rounds' with
    | infinite => rfl
    | finite within => exact absurd within (not_lt.mpr beyond)
  | finite within finite positive nearest even =>
    cases rounds' with
    | infinite beyond => exact absurd within (not_lt.mpr beyond)
    | finite _ finite' positive' nearest' even' =>
      have same := le_antisymm (nearest right finite') (nearest' left finite)
      by_contra different
      have apart : left.magnitude ≠ right.magnitude :=
        fun equal => different (eq_of_magnitude positive positive' equal)
      have values : left.rational ≠ right.rational := by
        rw [rational_of_positive positive, rational_of_positive positive']
        exact level_strictMono.injective.ne apart
      have evenLeft := even right finite' values.symm same
      have evenRight := even' left finite values same.symm
      -- Whichever is the smaller one, the number between them is no nearer than it.
      have between (other : Nat) (below : other < infinityPattern) :
          |exact - left.rational| ≤ |exact - level other| := by
        have far := nearest ⟨UInt64.ofNat other⟩ (isFinite_of_pattern below)
        obtain ⟨sign, magnitude⟩ := of_pattern (below.trans infinityPattern_lt)
        rwa [rational_of_positive sign, magnitude] at far
      have low : left.magnitude < infinityPattern := of_decide_eq_true finite
      have high : right.magnitude < infinityPattern := of_decide_eq_true finite'
      rw [rational_of_positive positive] at same between
      rw [rational_of_positive positive'] at same
      rcases Nat.lt_or_gt_of_ne apart with less | more
      · obtain ⟨other, below, nearer⟩ := exists_nearer_between less same evenLeft evenRight
        exact absurd (between other (below.trans high)) (not_le.mpr nearer)
      · obtain ⟨other, below, nearer⟩ := exists_nearer_between more same.symm evenRight evenLeft
        exact absurd (same ▸ between other (below.trans low)) (not_le.mpr nearer)

end OpLang.Binary64
