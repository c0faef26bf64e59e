import OpLang.Expr
import OpLang.Proofs.Number.Literal
import OpLang.Proofs.Number.Shortest

/-! # Reading printed numbers

A finite number that is not negative prints as a literal. The decimal of this literal lies between
the midpoints of the number with its neighbours, so it is rounded to the number again, and a text
that begins with a printed number begins with this number as a token.
-/

namespace OpLang

namespace Binary64

variable {pattern : Nat} {number : Binary64} {decimal : Decimal}

/-- A decimal that reads back as a pattern is rounded to its number. -/
theorem rounded_of_readsBack (finite : pattern < infinityPattern)
    (reads : readsBack pattern decimal = true) :
    decimal.rounded = ⟨UInt64.ofNat pattern⟩ := by
  have positive : 0 < Nat.pow 10 decimal.places := Nat.pow_pos (by decide)
  exact (rounds_nearest positive).unique (rounds_of_covers positive finite (readsBack_iff.mp reads))

section

variable (positive : number.isNegative = false) (finite : number.isFinite = true)

include positive finite

/-- The characters that print a number are a literal of this value. -/
theorem value_chars : Literal.value number.chars = number := by
  have below : number.magnitude < infinityPattern := of_decide_eq_true finite
  obtain ⟨positive', magnitude⟩ := of_pattern (below.trans infinityPattern_lt)
  rw [chars_eq positive finite, Literal.value_eq, Decimal.decimal_text,
    rounded_of_readsBack below (readsBack_shortest number.magnitude)]
  exact eq_of_magnitude positive' positive magnitude

/-- A printed number is a literal, so it has characters and all of them are digits and points. -/
theorem chars_literal :
    number.chars ≠ [] ∧ ∀ char ∈ number.chars, Literal.isPart char = true := by
  have plain := isPlain_chars positive finite
  refine ⟨?_, List.all_eq_true.mp plain.parts⟩
  rintro empty
  have digit := plain.digit
  rw [empty] at digit
  contradiction

end

end Binary64

/-- A printed number is read as the same number, alone and in front of anything that does not begin
with a digit or a point. -/
theorem lex_text_number {number : Binary64} (positive : number.isNegative = false)
    (finite : number.isFinite = true) :
    lex (Expr.number number).text = [.number number] ∧
      ∀ others : String, (∀ char ∈ others.toList.head?, Literal.isPart char = false) →
        lex ((Expr.number number).text ++ others) = .number number :: lex others := by
  obtain ⟨filled, parts⟩ := Binary64.chars_literal positive finite
  have alone := Literal.lex_ofList filled parts
  have inFront := Literal.lex_append filled parts
  rw [Binary64.value_chars positive finite] at alone inFront
  exact ⟨alone, inFront⟩

/-- So is the smallest positive number, with the many zeros that its text begins with. -/
theorem lex_text_number_of_smallest :
    let number : Binary64 := ⟨1⟩
    number.isNegative = false ∧ number.isFinite = true ∧
      lex (Expr.number number).text = [.number number] ∧
        ∀ others : String, (∀ char ∈ others.toList.head?, Literal.isPart char = false) →
          lex ((Expr.number number).text ++ others) = .number number :: lex others := by
  intro number
  have positive : number.isNegative = false := by decide
  have finite : number.isFinite = true := by decide
  exact ⟨positive, finite, lex_text_number positive finite⟩

end OpLang
