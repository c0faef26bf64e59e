import OpLang.Proofs.Grammar.Soundness
import OpLang.Proofs.Number.Shortest
import OpLang.Proofs.Text.Printable

/-! # Telling tokens and places from their text

Messages and listings show tokens and places as text. A token that is spelled in a text is told by
its text from every other such token: words, numbers and quoted forms begin differently, and what
stands in quotes is a reserved word or the escaped form of a character, which has one character
unless it begins with a backslash. A place is told by its text as well.
-/

namespace OpLang

/-- An escaped form of several characters begins with a backslash, so it is no word. -/
theorem escape_append_ne (word : List Char) (several : 1 < word.length) (plain : '\\' ∉ word)
    (char : Char) : escape char ++ ['\''] ≠ word ++ ['\''] := by
  intro same
  obtain rfl := List.append_cancel_right same
  revert several plain
  unfold escape
  split_ifs <;> simp

/-- Numbers that are not negative are written in letters, or in digits and points. -/
theorem Binary64.isPrintable_text {value : Binary64} (positive : value.isNegative = false)
    (real : value.isNaN = false) : IsPrintable value.text := by
  cases finite : value.isFinite with
  | true =>
    have parts := List.all_eq_true.mp (isPlain_chars positive finite).parts
    exact .of_isPart (by simpa [text] using parts)
  | false =>
    rw [text, chars_of_infinite positive real finite]
    decide

theorem IsName.isPrintable {name : String} (isName : IsName name) : IsPrintable name :=
  .of_isAlphanum (List.all_eq_true.mp isName.word)

namespace Token

variable {token other : Token}

theorem not_isSpelled_endOfInput : ¬ endOfInput.IsSpelled := fun ⟨_, lexeme⟩ =>
  lexeme.ne_endOfInput rfl

/-- Spelled tokens are told apart by their texts. -/
theorem eq_of_text_eq (spelled : token.IsSpelled) (spelled' : other.IsSpelled)
    (same : token.text = other.text) : token = other := by
  have chars := congrArg String.toList same
  -- Most pairs of kinds are told apart by the first characters or the lengths of their texts.
  cases token <;> cases other <;> simp [text, Binary64.text] at chars ⊢
  case define.symbol char =>
    exact escape_append_ne ['d', 'e', 'f'] (by decide) (by decide) char chars.symm
  case symbol.define char =>
    exact escape_append_ne ['d', 'e', 'f'] (by decide) (by decide) char chars
  case declare.symbol char =>
    exact escape_append_ne ['e', 'x', 't', 'e', 'r', 'n'] (by decide) (by decide) char chars.symm
  case symbol.declare char =>
    exact escape_append_ne ['e', 'x', 't', 'e', 'r', 'n'] (by decide) (by decide) char chars
  case name.name => exact String.toList_inj.mp chars
  case number.number =>
    exact Binary64.eq_of_chars_eq_of_real spelled.unsigned.1 spelled.unsigned.2
      spelled'.unsigned.1 spelled'.unsigned.2 chars
  case symbol.symbol => exact escape_injective chars

/-- The text of a spelled token is printable. -/
theorem IsSpelled.isPrintable_text (spelled : token.IsSpelled) : IsPrintable token.text := by
  cases token with
  | endOfInput | define | declare => decide
  | name name =>
    exact (IsPrintable.append (by decide) spelled.isName.isPrintable).append (by decide)
  | number value =>
    obtain ⟨positive, real⟩ := spelled.unsigned
    exact .append (by decide) (Binary64.isPrintable_text positive real)
  | symbol char =>
    have escaped : IsPrintable (String.ofList (escape char)) := by
      intro shown member
      rw [String.toList_ofList] at member
      exact isPrintable_of_mem_escape char shown member
    exact (IsPrintable.append (by decide) escaped).append (by decide)

end Token

namespace Location

/-- The characters that show a place. -/
theorem toList_text (place : Location) :
    place.text.toList = Nat.toDigits 10 place.line ++ ':' :: Nat.toDigits 10 place.column := by
  simp [text]

/-- Places are told apart by their texts. -/
theorem text_injective : Function.Injective text := by
  intro place other same
  have colon (number : Nat) : ':' ∉ Nat.toDigits 10 number := fun member =>
    absurd (Nat.isDigit_of_mem_toDigits (by decide) (by decide) member) (by decide)
  have back : Function.Injective (Nat.toDigits 10) :=
    Function.LeftInverse.injective (g := (Nat.ofDigitChars 10 · 0)) fun _ =>
      Nat.ofDigitChars_toDigits (by decide) (by decide)
  have chars := congrArg String.toList same
  rw [toList_text, toList_text] at chars
  obtain ⟨lines, -, columns⟩ :=
    (List.append_cons_inj_of_notMem (colon place.line) (colon place.column)).mp chars
  obtain ⟨line, column⟩ := place
  obtain ⟨line', column'⟩ := other
  exact congrArg₂ mk (back lines) (back columns)

end Location

end OpLang
