import Mathlib.Order.Basic
import OpLang.Text.Escape

/-! # Reading escaped characters back

A character can be read back from its escaped form, so escaped forms are told apart. They consist of
printable ASCII only, which has neither tabs nor newlines.
-/

namespace OpLang

/-- The number that hexadecimal digits in lower case stand for. -/
def hexadecimal (digits : List Char) : Nat :=
  digits.foldl (fun number digit => 16 * number +
    (if digit.isDigit then digit.toNat - '0'.toNat else digit.toNat - 'a'.toNat + 10)) 0

/-- The character with an escaped form. The length of the form tells what kind it is of. -/
def unescape : List Char → Char
  | [char] => char
  | [_, mark] =>
    if mark = 't' then '\t' else if mark = 'r' then '\r' else if mark = 'n' then '\n' else mark
  | _ :: _ :: _ :: digits => Char.ofNat (hexadecimal digits.dropLast)
  | [] => default

/-! ### Digits -/

/-- Digits are those below the base. -/
theorem exists_of_mem_toDigits {base number : Nat} (proper : 1 < base) {char : Char}
    (member : char ∈ Nat.toDigits base number) : ∃ digit < base, char = digit.digitChar := by
  induction number using Nat.strongRecOn with
  | _ number ih =>
    rw [Nat.toDigits_eq_if proper] at member
    split at member
    · next small => exact ⟨number, small, List.mem_singleton.mp member⟩
    · next large =>
      have positive : 0 < number := by omega
      rcases List.mem_append.mp member with front | last
      · exact ih (number / base) (Nat.div_lt_self positive proper) front
      · exact ⟨number % base, Nat.mod_lt _ (by omega), List.mem_singleton.mp last⟩

theorem hexadecimal_concat (digits : List Char) {digit : Nat} (small : digit < 16) :
    hexadecimal (digits ++ [digit.digitChar]) = 16 * hexadecimal digits + digit := by
  have value : ∀ digit : Fin 16, (if digit.val.digitChar.isDigit then
      digit.val.digitChar.toNat - '0'.toNat else digit.val.digitChar.toNat - 'a'.toNat + 10) =
        digit.val := by decide
  rw [hexadecimal, List.foldl_append]
  exact congrArg (16 * hexadecimal digits + ·) (value ⟨digit, small⟩)

theorem hexadecimal_toDigits (number : Nat) : hexadecimal (Nat.toDigits 16 number) = number := by
  induction number using Nat.strongRecOn with
  | _ number ih =>
    rw [Nat.toDigits_eq_if (by decide)]
    split
    · next small => exact (hexadecimal_concat [] small).trans (Nat.zero_add number)
    · next large =>
      rw [hexadecimal_concat _ (Nat.mod_lt number (by decide)), ih (number / 16) (by omega)]
      omega

/-! ### Escaped forms -/

theorem unescape_escape (char : Char) : unescape (escape char) = char := by
  unfold escape
  split_ifs with tab carriage newline quote printable
  · exact tab.symm
  · exact carriage.symm
  · exact newline.symm
  · have which : char = '\'' ∨ char = '\"' ∨ char = '\\' := by simpa [or_assoc] using quote
    rcases which with rfl | rfl | rfl <;> rfl
  · rfl
  · rw [List.append_assoc]
    change Char.ofNat (hexadecimal (Nat.toDigits 16 char.toNat ++ ['\x7d']).dropLast) = char
    rw [List.dropLast_concat, hexadecimal_toDigits, Char.ofNat_toNat]

/-- Characters are told apart by their escaped forms. -/
theorem escape_injective : Function.Injective escape :=
  Function.LeftInverse.injective unescape_escape

/-- Digits of any base up to sixteen are printable. -/
theorem isPrintable_of_mem_toDigits (number : Nat) {base : Nat} (proper : 1 < base)
    (small : base ≤ 16) : ∀ char ∈ Nat.toDigits base number, isPrintable char = true := by
  have printable : ∀ digit : Fin 16, isPrintable digit.val.digitChar = true := by decide
  intro char member
  obtain ⟨digit, below, rfl⟩ := exists_of_mem_toDigits proper member
  exact printable ⟨digit, Nat.lt_of_lt_of_le below small⟩

/-- An escaped form is printable. -/
theorem isPrintable_of_mem_escape (char : Char) :
    ∀ shown ∈ escape char, isPrintable shown = true := by
  unfold escape
  split_ifs with tab carriage newline quote printable
  · exact List.all_eq_true.mp rfl
  · exact List.all_eq_true.mp rfl
  · exact List.all_eq_true.mp rfl
  · have which : char = '\'' ∨ char = '\"' ∨ char = '\\' := by simpa [or_assoc] using quote
    rcases which with rfl | rfl | rfl <;> exact List.all_eq_true.mp rfl
  · exact fun _ member => List.mem_singleton.mp member ▸ printable
  · have opening : ∀ shown ∈ ['\\', 'u', '\x7b'], isPrintable shown = true :=
      List.all_eq_true.mp rfl
    have closing : ∀ shown ∈ ['\x7d'], isPrintable shown = true := List.all_eq_true.mp rfl
    have digits := isPrintable_of_mem_toDigits char.toNat (by decide) (Nat.le_refl 16)
    exact List.forall_mem_append.mpr ⟨List.forall_mem_append.mpr ⟨opening, digits⟩, closing⟩

end OpLang
