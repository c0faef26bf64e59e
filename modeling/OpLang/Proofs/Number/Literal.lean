import OpLang.Proofs.Lexer.Segmentation
import OpLang.Proofs.Number.Decimal
import OpLang.Proofs.Number.Nearest

/-! # What literals stand for

A decimal is written in four forms: as digits, and as digits with a point behind, in front of or
between them. A run of digits and points stands for the decimal that its longest beginning in one of
these forms spells, correctly rounded, and for zero if no beginning has such a form. Up to its
second point a run spells the same decimal, so neither what follows there nor zeros at the outer
ends of its digits have a say.
-/

namespace OpLang.Literal

open Binary64 (Rounds)

/-- The rational number that is spelled by the digits before a point and those behind it. -/
def spelled (whole fraction : List Char) : ℚ :=
  Nat.ofDigitChars 10 whole 0 + Nat.ofDigitChars 10 fraction 0 / 10 ^ fraction.length

/-- The forms of a decimal with the rational number that it spells. -/
inductive Numeral : List Char → ℚ → Prop where
  | whole {whole : List Char} (filled : whole ≠ []) (digits : Digits whole) :
    Numeral whole (spelled whole [])
  | pointBehind {whole : List Char} (filled : whole ≠ []) (digits : Digits whole) :
    Numeral (whole ++ ['.']) (spelled whole [])
  | pointBefore {fraction : List Char} (filled : fraction ≠ []) (digits : Digits fraction) :
    Numeral ('.' :: fraction) (spelled [] fraction)
  | pointBetween {whole fraction : List Char} (filled : whole ≠ []) (filled' : fraction ≠ [])
    (digits : Digits whole) (digits' : Digits fraction) :
    Numeral (whole ++ '.' :: fraction) (spelled whole fraction)

/-- The longest beginning of a literal that has one of the forms. -/
structure LongestNumeral (literal front : List Char) (exact : ℚ) : Prop where
  beginning : front <+: literal
  numeral : Numeral front exact
  longest : ∀ (other : List Char) (exact : ℚ), other <+: literal → Numeral other exact →
    other.length ≤ front.length

variable {literal whole fraction front rest : List Char} {exact : ℚ}

/-! ### Digits and their number -/

theorem Digits.append (digits : Digits whole) (digits' : Digits fraction) :
    Digits (whole ++ fraction) :=
  List.forall_mem_append.mpr ⟨digits, digits'⟩

theorem digits_zeros (count : Nat) : Digits (List.replicate count '0') := by
  intro char member
  obtain rfl := List.eq_of_mem_replicate member
  decide

/-- Digits spell the number of their decimal. -/
theorem spelled_eq (whole fraction : List Char) : spelled whole fraction =
    (Decimal.ofDigits whole fraction).coefficient /
      (Nat.pow 10 (Decimal.ofDigits whole fraction).places : ℕ) := by
  have places : ((Nat.pow 10 fraction.length : ℕ) : ℚ) = 10 ^ fraction.length :=
    Nat.cast_pow 10 fraction.length
  have nonzero : (10 : ℚ) ^ fraction.length ≠ 0 := pow_ne_zero _ (by decide)
  have coefficient : Nat.ofDigitChars 10 (whole ++ fraction) 0 =
      10 ^ fraction.length * Nat.ofDigitChars 10 whole 0 + Nat.ofDigitChars 10 fraction 0 := by
    rw [Nat.ofDigitChars_append, Nat.ofDigitChars_eq_ofDigitChars_zero]
  rw [spelled, Decimal.ofDigits, coefficient, places, Nat.cast_add, Nat.cast_mul, Nat.cast_pow,
    add_div, Nat.cast_ofNat, mul_div_cancel_left₀ _ nonzero]

/-- Zeros at the outer ends add nothing. -/
theorem spelled_zeros (leading trailing : Nat) (whole fraction : List Char) :
    spelled (List.replicate leading '0' ++ whole) (fraction ++ List.replicate trailing '0') =
      spelled whole fraction := by
  have nonzero : (10 : ℚ) ^ trailing ≠ 0 := pow_ne_zero _ (by decide)
  rw [spelled, spelled, Nat.ofDigitChars_append, Nat.ofDigitChars_append,
    Nat.ofDigitChars_replicate_zero, Nat.ofDigitChars_replicate_zero, Nat.mul_zero,
    List.length_append, List.length_replicate, Nat.cast_mul, Nat.cast_pow, Nat.cast_ofNat, pow_add,
    mul_comm, mul_div_mul_right _ _ nonzero]

/-! ### Up to the second point -/

theorem exists_splits (parts : ∀ char ∈ literal, isPart char = true) :
    ∃ whole fraction, Splits literal whole fraction := by
  -- Where digits end in a run of digits and points, it ends or goes on with a point.
  have pointNext {chars : List Char} (parts : ∀ char ∈ chars, isPart char = true) :
      ∀ char ∈ (chars.dropWhile Char.isDigit).head?, char = '.' := by
    intro char head
    have part := parts char ((List.dropWhile_suffix _).subset (List.mem_of_head? head))
    simpa [isPart, head_dropWhile_fails char head] using part
  have cut := List.takeWhile_append_dropWhile (p := Char.isDigit) (l := literal)
  cases behind : literal.dropWhile Char.isDigit with
  | nil =>
    rw [behind, List.append_nil] at cut
    exact ⟨literal, [], .whole (cut ▸ digits_takeWhile literal)⟩
  | cons point others =>
    have others_parts : ∀ char ∈ others, isPart char = true := fun char member =>
      parts char ((List.dropWhile_suffix _).subset (behind ▸ List.mem_cons_of_mem point member))
    obtain rfl : point = '.' := pointNext parts point (by rw [behind]; rfl)
    rw [behind, ← List.takeWhile_append_dropWhile (p := Char.isDigit) (l := others)] at cut
    have splits := Splits.pointed (digits_takeWhile literal) (digits_takeWhile others)
      (pointNext others_parts)
    rw [cut] at splits
    exact ⟨_, _, splits⟩

/-- A literal is rounded correctly, from its digits up to the second point. -/
theorem Splits.rounds (splits : Splits literal whole fraction) :
    Rounds (spelled whole fraction) (value literal) := by
  rw [value_eq, splits.decimal, spelled_eq]
  exact Binary64.rounds_nearest (Nat.pow_pos (by decide))

theorem Splits.spelled_unique {whole' fraction' : List Char}
    (splits : Splits literal whole fraction) (splits' : Splits literal whole' fraction') :
    spelled whole fraction = spelled whole' fraction' := by
  rw [spelled_eq, spelled_eq, ← splits.decimal, ← splits'.decimal]

/-! ### The longest beginning -/

theorem Numeral.ne_nil (numeral : Numeral front exact) : front ≠ [] := by
  cases numeral with
  | whole filled => exact filled
  | pointBefore => exact List.cons_ne_nil _ _
  | pointBehind | pointBetween => simp

theorem Numeral.splits (numeral : Numeral front exact) :
    ∃ whole fraction, Splits front whole fraction ∧ exact = spelled whole fraction := by
  have nothing : ∀ char ∈ ([] : List Char).head?, char = '.' := by simp
  cases numeral with
  | whole _ digits => exact ⟨front, [], .whole digits, rfl⟩
  | @pointBehind whole _ digits =>
    exact ⟨whole, [], .pointed digits digits_nil nothing, rfl⟩
  | @pointBefore fraction _ digits =>
    have splits := Splits.pointed digits_nil digits nothing
    rw [List.append_nil] at splits
    exact ⟨[], fraction, splits, rfl⟩
  | @pointBetween whole fraction _ _ digits digits' =>
    have splits := Splits.pointed digits digits' nothing
    rw [List.append_nil] at splits
    exact ⟨whole, fraction, splits, rfl⟩

/-- Digits with a point between them have one of the forms, if there are any. -/
theorem numeral_of_digits (digits : Digits whole) (digits' : Digits fraction)
    (filled : whole ≠ [] ∨ fraction ≠ []) :
    Numeral (whole ++ '.' :: fraction) (spelled whole fraction) := by
  rcases eq_or_ne whole [] with rfl | wholeFilled
  · exact .pointBefore (filled.resolve_left fun nonempty => nonempty rfl) digits'
  rcases eq_or_ne fraction [] with rfl | fractionFilled
  · exact .pointBehind wholeFilled digits
  · exact .pointBetween wholeFilled fractionFilled digits digits'

/-- The longest beginning that has one of the forms holds all digits up to the second point. -/
theorem LongestNumeral.splits (longest : LongestNumeral literal front exact)
    (splits : Splits literal whole fraction) : Splits front whole fraction := by
  have filled := longest.numeral.ne_nil
  cases splits with
  | whole digits =>
    rcases eq_or_ne literal [] with rfl | nonempty
    · exact absurd (List.prefix_nil.mp longest.beginning) filled
    · have long := longest.longest literal _ (List.prefix_refl _) (.whole nonempty digits)
      rw [longest.beginning.eq_of_length_le long]
      exact .whole digits
  | @pointed whole fraction rest digits digits' pointNext =>
    have beginning : whole ++ '.' :: fraction <+: whole ++ '.' :: (fraction ++ rest) :=
      ⟨rest, by rw [List.append_assoc, List.cons_append]⟩
    have long : (whole ++ '.' :: fraction).length ≤ front.length := by
      by_cases empty : whole = [] ∧ fraction = []
      · obtain ⟨rfl, rfl⟩ := empty
        exact List.length_pos_iff.mpr filled
      · exact longest.longest _ _ beginning
          (numeral_of_digits digits digits' (not_and_or.mp empty))
    obtain ⟨others, rfl⟩ := List.prefix_of_prefix_length_le beginning longest.beginning long
    have onwards : others <+: rest := by
      have front := longest.beginning
      rwa [List.append_assoc, List.cons_append, List.prefix_append_right_inj,
        List.prefix_cons_inj, List.prefix_append_right_inj] at front
    obtain ⟨last, rfl⟩ := onwards
    rw [List.append_assoc, List.cons_append]
    refine .pointed digits digits' fun char head => pointNext char ?_
    rw [List.head?_append, Option.mem_def.mp head]
    rfl

/-- A literal of which no beginning has one of the forms stands for zero. -/
theorem value_of_no_numeral (filled : literal ≠ []) (splits : Splits literal whole fraction)
    (nowhere : ∀ (front : List Char) (exact : ℚ), front <+: literal → ¬ Numeral front exact) :
    value literal = .zero := by
  have decimal := splits.decimal
  cases splits with
  | whole digits => exact absurd (.whole filled digits) (nowhere literal _ (List.prefix_refl _))
  | @pointed whole fraction rest digits digits' pointNext =>
    have empty : whole = [] ∧ fraction = [] := by
      by_contra digit
      refine nowhere (whole ++ '.' :: fraction) _ ⟨rest, ?_⟩
        (numeral_of_digits digits digits' (not_and_or.mp digit))
      rw [List.append_assoc, List.cons_append]
    obtain ⟨rfl, rfl⟩ := empty
    rw [value_eq, decimal]
    decide +kernel

/-! ### Literals in texts -/

section

variable (filled : literal ≠ []) (parts : ∀ char ∈ literal, isPart char = true)

include filled parts

/-- A literal in front of a text is a token by itself, unless the text makes it longer. -/
theorem lex_append (others : String) (ends : ∀ char ∈ others.toList.head?, isPart char = false) :
    lex (String.ofList literal ++ others) = .number (value literal) :: lex others := by
  obtain ⟨segments, finish, cut⟩ := exists_segmented others.toList
  have whole : Segmented finish (⟨[], literal, .number (value literal)⟩ :: segments)
      (String.ofList literal ++ others).toList := by
    rw [String.toList_append, String.toList_ofList]
    exact .cons (.nil _) (.literal filled parts) ends cut
  rw [lex_of_segmented whole, lex_of_segmented cut, List.map_cons]

theorem lex_ofList : lex (String.ofList literal) = [.number (value literal)] := by
  have cut : Segmented [] [] "".toList := .nil (.nil [])
  have nothing : lex "" = [] := lex_of_segmented cut
  have whole := lex_append filled parts "" (by simp)
  rwa [String.append_empty, nothing] at whole

end

/-- What a run of digits and points stands for. -/
structure StandsFor (literal : List Char) (number : Binary64) : Prop where
  /-- A text of the run alone is this one token. -/
  alone : lex (String.ofList literal) = [.number number]
  /-- In front of a text that does not make it longer, it is a token by itself. -/
  inFront : ∀ others : String, (∀ char ∈ others.toList.head?, isPart char = false) →
    lex (String.ofList literal ++ others) = .number number :: lex others
  /-- A lexer that finds the run behind blanks and comments, and no part of a literal behind it,
  answers the number and passes the run. -/
  token : ∀ {σ : Type} [CharSource σ] (lexer : Lexer σ) (gap others : List Char),
    lexer.ahead = gap ++ (literal ++ others) → Gap gap (literal ++ others) →
      (∀ char ∈ others.head?, isPart char = false) →
        lexer.next.1.token = .number number ∧ lexer.next.2.ahead = others
  /-- It is the number of the longest beginning that has one of the forms. -/
  longest : ∀ front exact, LongestNumeral literal front exact → Rounds exact number
  /-- Without such a beginning it is positive zero. -/
  otherwise : (∀ front exact, front <+: literal → ¬ Numeral front exact) → number = .zero
  /-- The run has digits up to its second point, with a point between them or not. -/
  exists_splits : ∃ whole fraction, Splits literal whole fraction
  /-- These digits are rounded to the number and to no other. -/
  digits : ∀ whole fraction, Splits literal whole fraction →
    ∀ other, Rounds (spelled whole fraction) other ↔ other = number
  /-- Neither zeros at the outer ends of the digits nor what follows from the second point on make
  a difference. -/
  ends : ∀ whole fraction rest, Splits literal whole fraction →
    (∀ char ∈ rest.head?, char = '.') → ∀ leading trailing : Nat,
      value (List.replicate leading '0' ++ whole ++
        '.' :: (fraction ++ List.replicate trailing '0' ++ rest)) = number
  /-- It has no sign, so it is not the negative zero. -/
  positive : number.isNegative = false
  /-- It is a number. -/
  real : number.isNaN = false

/-- A run of digits and points stands for its value. -/
theorem standsFor (filled : literal ≠ []) (parts : ∀ char ∈ literal, isPart char = true) :
    StandsFor literal (value literal) := by
  obtain ⟨whole, fraction, splits⟩ := Literal.exists_splits parts
  have rounds := splits.rounds
  exact {
    alone := lex_ofList filled parts
    inFront := lex_append filled parts
    token := by
      intro σ _ lexer gap others ahead behindGap ends
      obtain ⟨later, same, left⟩ := Lexer.next_of_gap behindGap ahead
      rw [same]
      exact Lexer.next_of_lexeme (.literal filled parts) ends left
    longest := by
      intro front exact longest
      obtain ⟨whole', fraction', splits', rfl⟩ := longest.numeral.splits
      rwa [splits'.spelled_unique (longest.splits splits)]
    otherwise := value_of_no_numeral filled splits
    exists_splits := ⟨whole, fraction, splits⟩
    digits := by
      intro whole fraction splits other
      exact ⟨fun rounds => rounds.unique splits.rounds, fun same => same ▸ splits.rounds⟩
    ends := by
      intro whole fraction rest splits pointNext leading trailing
      obtain ⟨digits, digits'⟩ := splits.digits
      have longer := (Splits.pointed ((digits_zeros leading).append digits)
        (digits'.append (digits_zeros trailing)) pointNext).rounds
      rw [spelled_zeros] at longer
      exact longer.unique splits.rounds
    positive := rounds.isNegative
    real := rounds.isNaN }

/-- Halfway between two neighbours, the even one is taken. -/
theorem standsFor_of_halfway :
    "0009007199254740993.00..7".toList ≠ [] ∧
      (∀ char ∈ "0009007199254740993.00..7".toList, isPart char = true) ∧
      StandsFor "0009007199254740993.00..7".toList ⟨UInt64.ofNat 0x4340000000000000⟩ := by
  have filled : "0009007199254740993.00..7".toList ≠ [] := by decide
  have parts : ∀ char ∈ "0009007199254740993.00..7".toList, isPart char = true :=
    List.all_eq_true.mp (by decide)
  have number : value "0009007199254740993.00..7".toList = ⟨UInt64.ofNat 0x4340000000000000⟩ := by
    decide +kernel
  exact ⟨filled, parts, number ▸ standsFor filled parts⟩

end OpLang.Literal
