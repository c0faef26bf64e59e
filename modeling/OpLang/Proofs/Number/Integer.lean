import Mathlib.Algebra.Group.Int.Defs
import OpLang.Number.Integer
import OpLang.Proofs.Number.Decimal

/-! # Which texts are integers

An integer is written as one or more digits behind at most one sign, with as many leading zeros as
one likes. What is read is exactly the integers of 32 bits that are so written. Stopping at the
first digit that leads out of range loses none of them, since a number only grows with its digits.
-/

namespace OpLang

open Literal (Digits)

/-- The forms of an integer with what each stands for. -/
inductive Integral : List Char → Int → Prop where
  | bare {digits : List Char} (filled : digits ≠ []) (decimal : Digits digits) :
    Integral digits (Nat.ofDigitChars 10 digits 0)
  | plus {digits : List Char} (filled : digits ≠ []) (decimal : Digits digits) :
    Integral ('+' :: digits) (Nat.ofDigitChars 10 digits 0)
  | minus {digits : List Char} (filled : digits ≠ []) (decimal : Digits digits) :
    Integral ('-' :: digits) (-(Nat.ofDigitChars 10 digits 0 : Int))

variable {bound number total : Nat} {excess : IntegerFault} {char : Char} {digits : List Char}
  {value : Int32}

/-! ### Digits within a bound -/

theorem Literal.digits_cons : Digits (char :: digits) ↔ char.isDigit = true ∧ Digits digits :=
  List.forall_mem_cons

/-- Digits never make a number smaller. -/
theorem le_ofDigitChars (digits : List Char) (number : Nat) :
    number ≤ Nat.ofDigitChars 10 digits number := by
  induction digits generalizing number with
  | nil => exact Nat.le_refl number
  | cons char digits ih =>
    rw [Nat.ofDigitChars_cons]
    have grown := ih (10 * number + (char.toNat - '0'.toNat))
    omega

theorem boundedDigits_eq_ok_iff (within : number ≤ bound) :
    boundedDigits bound excess number digits = .ok total ↔
      Digits digits ∧ total = Nat.ofDigitChars 10 digits number ∧ total ≤ bound := by
  induction digits generalizing number with
  | nil =>
    simp only [boundedDigits, Except.ok.injEq, Nat.ofDigitChars_nil, Literal.digits_nil, true_and]
    exact ⟨fun same => ⟨same.symm, same ▸ within⟩, fun ⟨same, _⟩ => same.symm⟩
  | cons char digits ih =>
    rw [boundedDigits, Literal.digits_cons, Nat.ofDigitChars_cons]
    cases digit : char.isDigit with
    | false => simp
    | true =>
      by_cases exceeds : bound < 10 * number + (char.toNat - '0'.toNat)
      · -- The number is out of range already, and the digits behind do not bring it back.
        have grown := le_ofDigitChars digits (10 * number + (char.toNat - '0'.toNat))
        simp only [Bool.not_true, Bool.false_eq_true, if_false, exceeds, if_true, reduceCtorEq,
          true_and, false_iff]
        omega
      · simp only [Bool.not_true, Bool.false_eq_true, if_false, exceeds, true_and]
        exact ih (Nat.le_of_not_lt exceeds)

/-! ### Integers of 32 bits -/

/-- Digits within a bound become the integer that they stand for with a sign, if the bound is that
of the integers with this sign. -/
theorem map_boundedDigits_eq_ok_iff (signed : Int → Int)
    (fits : ∀ number : Nat, number ≤ bound ↔ -2 ^ 31 ≤ signed number ∧ signed number < 2 ^ 31) :
    ((boundedDigits bound excess 0 digits).map fun number => Int32.ofInt (signed number)) =
        .ok value ↔
      Digits digits ∧ signed (Nat.ofDigitChars 10 digits 0) = value.toInt := by
  constructor
  · intro read
    cases total : boundedDigits bound excess 0 digits with
    | error fault => rw [total] at read; cases read
    | ok number =>
      rw [total] at read
      obtain ⟨decimal, rfl, within⟩ := (boundedDigits_eq_ok_iff (Nat.zero_le _)).mp total
      obtain ⟨above, below⟩ := (fits _).mp within
      cases read
      exact ⟨decimal, (Int32.toInt_ofInt_of_le above below).symm⟩
  · rintro ⟨decimal, spelled⟩
    have within : Nat.ofDigitChars 10 digits 0 ≤ bound :=
      (fits _).mpr (spelled ▸ ⟨value.le_toInt, value.toInt_lt⟩)
    have total : boundedDigits bound excess 0 digits = .ok (Nat.ofDigitChars 10 digits 0) :=
      (boundedDigits_eq_ok_iff (Nat.zero_le _)).mpr ⟨decimal, rfl, within⟩
    rw [total]
    exact congrArg Except.ok ((congrArg Int32.ofInt spelled).trans (Int32.ofInt_toInt value))

theorem positiveInt32_eq_ok_iff :
    positiveInt32 digits = .ok value ↔
      Digits digits ∧ (Nat.ofDigitChars 10 digits 0 : Int) = value.toInt :=
  map_boundedDigits_eq_ok_iff (fun number => number) fun number => by
    have limit : Nat.pow 2 31 = 2 ^ 31 := rfl
    omega

theorem negativeInt32_eq_ok_iff :
    negativeInt32 digits = .ok value ↔
      Digits digits ∧ -(Nat.ofDigitChars 10 digits 0 : Int) = value.toInt :=
  map_boundedDigits_eq_ok_iff (fun number => -number) fun number => by
    have limit : Nat.pow 2 31 = 2 ^ 31 := rfl
    omega

/-- Digits without a sign are read as they are. -/
theorem parseInt32_of_digits (filled : digits ≠ []) (decimal : Digits digits) :
    parseInt32 digits = positiveInt32 digits := by
  have noPlus : '+' ∉ digits := fun member => absurd (decimal '+' member) (by decide)
  have noMinus : '-' ∉ digits := fun member => absurd (decimal '-' member) (by decide)
  unfold parseInt32
  split
  case h_1 => exact absurd rfl filled
  case h_2 | h_4 => exact absurd List.mem_cons_self noPlus
  case h_3 | h_5 => exact absurd List.mem_cons_self noMinus
  case h_6 => rfl

/-- What is read is what is written as an integer and fits. -/
theorem parseInt32_eq_ok_iff {chars : List Char} :
    parseInt32 chars = .ok value ↔ Integral chars value.toInt := by
  constructor
  · intro read
    unfold parseInt32 at read
    split at read
    case h_1 | h_2 | h_3 => cases read
    case h_4 digits filled =>
      obtain ⟨decimal, spelled⟩ := positiveInt32_eq_ok_iff.mp read
      exact spelled ▸ .plus filled decimal
    case h_5 digits filled =>
      obtain ⟨decimal, spelled⟩ := negativeInt32_eq_ok_iff.mp read
      exact spelled ▸ .minus filled decimal
    case h_6 filled _ _ _ _ =>
      obtain ⟨decimal, spelled⟩ := positiveInt32_eq_ok_iff.mp read
      exact spelled ▸ .bare filled decimal
  · intro written
    generalize number : value.toInt = integer at written
    cases written with
    | bare filled decimal =>
      rw [parseInt32_of_digits filled decimal]
      exact positiveInt32_eq_ok_iff.mpr ⟨decimal, number.symm⟩
    | plus filled decimal =>
      rw [parseInt32]
      exacts [positiveInt32_eq_ok_iff.mpr ⟨decimal, number.symm⟩, filled]
    | minus filled decimal =>
      rw [parseInt32]
      exacts [negativeInt32_eq_ok_iff.mpr ⟨decimal, number.symm⟩, filled]

/-! ### Decimal notation -/

theorem toList_repr (number : Nat) : number.repr.toList = Nat.toDigits 10 number := by
  rw [Nat.repr_eq_ofList_toDigits, String.toList_ofList]

/-- An integer in decimal notation is written as that integer. -/
theorem integral_toString (integer : Int) : Integral (toString integer).toList integer := by
  have digits (number : Nat) : Digits (Nat.toDigits 10 number) := fun _ member =>
    Nat.isDigit_of_mem_toDigits (by decide) (by decide) member
  have back (number : Nat) : Nat.ofDigitChars 10 (Nat.toDigits 10 number) 0 = number :=
    Nat.ofDigitChars_toDigits (by decide) (by decide)
  cases integer with
  | ofNat number =>
    have written := Integral.bare Nat.toDigits_ne_nil (digits number)
    have text : (toString (Int.ofNat number)).toList = Nat.toDigits 10 number := toList_repr number
    rwa [back number, ← text] at written
  | negSucc number =>
    have written := Integral.minus Nat.toDigits_ne_nil (digits (number + 1))
    have text : (toString (Int.negSucc number)).toList = '-' :: Nat.toDigits 10 (number + 1) :=
      (String.toList_append ..).trans (congrArg ('-' :: ·) (toList_repr (number + 1)))
    rwa [back (number + 1), ← text] at written

end OpLang
