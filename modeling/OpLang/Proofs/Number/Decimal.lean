import OpLang.Proofs.Grammar.Writing
import OpLang.Proofs.Number.Search

/-! # Reading decimals back

A literal spells the decimal with the digits before its first point and those between this point
and the next. The text of a decimal is a plain literal, and as a literal it spells the decimal
again: the digits in front of the point are its whole part, and behind the point there are as many
as it has places. So no two decimals have the same text.
-/

namespace OpLang

namespace Literal

/-- The digits of a literal before its first point and those between this point and the next. -/
inductive Splits : List Char → List Char → List Char → Prop where
  | whole {whole : List Char} (digits : Digits whole) : Splits whole whole []
  | pointed {whole fraction rest : List Char} (digits : Digits whole) (digits' : Digits fraction)
    (pointNext : ∀ char ∈ rest.head?, char = '.') :
    Splits (whole ++ '.' :: (fraction ++ rest)) whole fraction

variable {literal whole fraction : List Char}

theorem Splits.digits (splits : Splits literal whole fraction) :
    Digits whole ∧ Digits fraction := by
  cases splits with
  | whole digits => exact ⟨digits, digits_nil⟩
  | pointed digits digits' => exact ⟨digits, digits'⟩

theorem point_not_digit {others : List Char} (pointNext : ∀ char ∈ others.head?, char = '.') :
    ∀ char ∈ others.head?, char.isDigit = false := by
  intro char head
  rw [pointNext char head, isDigit_point]

/-- Only the digits up to the second point have a say. -/
theorem Splits.decimal (splits : Splits literal whole fraction) :
    decimal literal = .ofDigits whole fraction := by
  cases splits with
  | whole digits =>
    rw [Literal.decimal, List.takeWhile_eq_self_iff.mpr digits,
      List.dropWhile_eq_nil_iff.mpr digits]
  | @pointed whole fraction rest digits digits' pointNext =>
    obtain ⟨taken, left⟩ := digits_cut digits isDigit_point (fraction ++ rest)
    obtain ⟨taken', -⟩ := part_of_test digits' (point_not_digit pointNext)
    rw [Literal.decimal, taken, left]
    exact congrArg (Decimal.ofDigits whole) taken'

end Literal

namespace Decimal

open Literal (Digits Splits)

variable (decimal : Decimal)

theorem isDigit_of_mem_wholeDigits : ∀ char ∈ decimal.wholeDigits, char.isDigit = true :=
  fun _ member => Nat.isDigit_of_mem_toDigits (by decide) (by decide) member

theorem isDigit_of_mem_fractionDigits : ∀ char ∈ decimal.fractionDigits, char.isDigit = true := by
  intro char member
  rcases List.mem_append.mp member with padding | digits
  · obtain rfl := List.eq_of_mem_replicate padding
    decide
  · exact Nat.isDigit_of_mem_toDigits (by decide) (by decide) digits

/-- There is a digit for each place. -/
theorem length_fractionDigits (fractional : decimal.places ≠ 0) :
    decimal.fractionDigits.length = decimal.places := by
  have below : decimal.coefficient % Nat.pow 10 decimal.places < 10 ^ decimal.places :=
    Nat.mod_lt _ (Nat.pow_pos (by decide))
  have short : (Nat.toDigits 10 (decimal.coefficient % Nat.pow 10 decimal.places)).length ≤
      decimal.places :=
    (Nat.length_toDigits_le_iff (by decide) (Nat.pos_of_ne_zero fractional)).mpr below
  rw [fractionDigits, List.length_leftpad]
  omega

theorem ofDigitChars_wholeDigits :
    Nat.ofDigitChars 10 decimal.wholeDigits 0 =
      decimal.coefficient / Nat.pow 10 decimal.places :=
  Nat.ofDigitChars_toDigits (by decide) (by decide)

/-- Zeros in front of the digits add nothing. -/
theorem ofDigitChars_fractionDigits :
    Nat.ofDigitChars 10 decimal.fractionDigits 0 =
      decimal.coefficient % Nat.pow 10 decimal.places := by
  rw [fractionDigits, List.leftpad, Nat.ofDigitChars_append, Nat.ofDigitChars_replicate_zero,
    Nat.mul_zero]
  exact Nat.ofDigitChars_toDigits (by decide) (by decide)

/-- The digits of a decimal spell its coefficient. -/
theorem ofDigits_digits (fractional : decimal.places ≠ 0) :
    ofDigits decimal.wholeDigits decimal.fractionDigits = decimal := by
  have length := decimal.length_fractionDigits fractional
  have coefficient : Nat.ofDigitChars 10 (decimal.wholeDigits ++ decimal.fractionDigits) 0 =
      decimal.coefficient := by
    rw [Nat.ofDigitChars_append, Nat.ofDigitChars_eq_ofDigitChars_zero, length,
      ofDigitChars_wholeDigits, ofDigitChars_fractionDigits]
    exact Nat.div_add_mod _ _
  rw [ofDigits, coefficient, length]

/-- As a literal, the text of a decimal spells the decimal. -/
theorem decimal_text : Literal.decimal decimal.text = decimal := by
  have whole : Digits decimal.wholeDigits := decimal.isDigit_of_mem_wholeDigits
  have fraction : Digits decimal.fractionDigits := decimal.isDigit_of_mem_fractionDigits
  unfold text
  split
  · next integral =>
    have undivided : decimal.coefficient / Nat.pow 10 0 = decimal.coefficient := Nat.div_one _
    rw [(Splits.whole whole).decimal, ofDigits, List.append_nil, ofDigitChars_wholeDigits, integral,
      undivided]
    exact congrArg (mk _) integral.symm
  · next fractional =>
    have nothing : ∀ char ∈ ([] : List Char).head?, char = '.' := by simp
    have splits := Splits.pointed whole fraction nothing
    rw [List.append_nil] at splits
    exact splits.decimal.trans (decimal.ofDigits_digits fractional)

theorem text_injective {decimal other : Decimal} (same : decimal.text = other.text) :
    decimal = other := by
  rw [← decimal.decimal_text, same, other.decimal_text]

/-- The text of a decimal is a literal that spells a number in the usual way. -/
theorem isPlain_text : IsPlain decimal.text := by
  have digits {chars : List Char} (digit : ∀ char ∈ chars, char.isDigit = true) :
      chars.all Literal.isPart = true ∧ chars.count '.' = 0 := by
    constructor
    · apply List.all_eq_true.mpr
      intro char member
      simp [Literal.isPart, digit char member]
    · apply List.count_eq_zero.mpr
      intro member
      exact absurd (digit '.' member) (by decide)
  obtain ⟨wholeParts, wholePoints⟩ := digits decimal.isDigit_of_mem_wholeDigits
  obtain ⟨fractionParts, fractionPoints⟩ := digits decimal.isDigit_of_mem_fractionDigits
  have digit : decimal.wholeDigits.any Char.isDigit = true := by
    have filled : decimal.wholeDigits ≠ [] := Nat.toDigits_ne_nil
    obtain ⟨first, others, whole⟩ := List.exists_cons_of_ne_nil filled
    have first := decimal.isDigit_of_mem_wholeDigits first (by rw [whole]; simp)
    rw [whole, List.any_cons, first, Bool.true_or]
  unfold text
  split
  · exact ⟨wholeParts, by omega, digit⟩
  · refine ⟨?_, ?_, ?_⟩
    · rw [List.all_append, List.all_cons, wholeParts, fractionParts]
      rfl
    · rw [List.count_append, List.count_cons, wholePoints, fractionPoints]
      simp
    · rw [List.any_append, digit, Bool.true_or]

end Decimal

end OpLang
