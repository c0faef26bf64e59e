import OpLang.Location
import OpLang.Proofs.Lexer.Lexemes
import OpLang.Proofs.Text.Escape

/-! # Texts on one line

A text of printable ASCII has neither tabs nor newlines, so it can stand in a column of a line and
is told from what follows it.
-/

namespace OpLang

/-- Every character of the text is printable. -/
def IsPrintable (text : String) : Prop := ∀ char ∈ text.toList, isPrintable char = true

instance (text : String) : Decidable (IsPrintable text) :=
  List.decidableBAll (fun char : Char => isPrintable char = true) text.toList

/-- The text takes no more than a line. -/
def OneLine (text : String) : Prop := '\n' ∉ text.toList

instance (text : String) : Decidable (OneLine text) := inferInstanceAs (Decidable (¬ _))

theorem isPrintable_iff {char : Char} :
    isPrintable char = true ↔ 32 ≤ char.toNat ∧ char.toNat ≤ 126 := by
  rw [isPrintable, Bool.and_eq_true, decide_eq_true_eq, decide_eq_true_eq]
  exact and_congr UInt32.le_iff_toNat_le UInt32.le_iff_toNat_le

namespace IsPrintable

variable {text other : String}

theorem append (first : IsPrintable text) (second : IsPrintable other) :
    IsPrintable (text ++ other) := by
  rw [IsPrintable, String.toList_append]
  exact List.forall_mem_append.mpr ⟨first, second⟩

theorem of_isAlphanum (word : ∀ char ∈ text.toList, char.isAlphanum = true) :
    IsPrintable text := by
  intro char member
  have bounds := bounds_of_isAlphanum (word char member)
  exact isPrintable_iff.mpr ⟨by omega, by omega⟩

theorem of_isPart (parts : ∀ char ∈ text.toList, Literal.isPart char = true) :
    IsPrintable text := by
  intro char member
  have bounds := bounds_of_isPart (parts char member)
  exact isPrintable_iff.mpr ⟨by omega, by omega⟩

/-- Numbers are written with the ten digits. -/
theorem toString_nat (number : Nat) : IsPrintable (toString number) := by
  intro char member
  have digits : char ∈ Nat.toDigits 10 number := by simpa using member
  exact isPrintable_of_mem_toDigits number (by decide) (by decide) char digits

theorem location (place : Location) : IsPrintable place.text :=
  ((toString_nat place.line).append (by decide)).append (toString_nat place.column)

/-- What is not printable does not occur. -/
theorem notMem {separator : Char} (printable : IsPrintable text)
    (special : isPrintable separator = false) : separator ∉ text.toList := fun member =>
  absurd (printable separator member) (by rw [special]; decide)

/-- A printable text ends where the first character follows that is not printable. -/
theorem cut {separator : Char} {rest rest' : List Char} (printable : IsPrintable text)
    (special : isPrintable separator = false) (printable' : IsPrintable other)
    (same : text.toList ++ separator :: rest = other.toList ++ separator :: rest') :
    text = other ∧ rest = rest' := by
  rcases List.append_eq_append_iff.mp same with ⟨more, longer, behind⟩ | ⟨more, longer, behind⟩
  · cases more with
    | nil => exact ⟨String.toList_inj.mp (by simpa using longer.symm), (List.cons.inj behind).2⟩
    | cons first more =>
      obtain ⟨rfl, -⟩ := List.cons.inj behind
      exact absurd (longer ▸ by simp) (printable'.notMem special)
  · cases more with
    | nil => exact ⟨String.toList_inj.mp (by simpa using longer), (List.cons.inj behind).2.symm⟩
    | cons first more =>
      obtain ⟨rfl, -⟩ := List.cons.inj behind
      exact absurd (longer ▸ by simp) (printable.notMem special)

end IsPrintable

theorem OneLine.append {text other : String} (first : OneLine text) (second : OneLine other) :
    OneLine (text ++ other) := by
  rw [OneLine, String.toList_append, List.mem_append]
  exact fun member => member.elim first second

theorem IsPrintable.oneLine {text : String} (printable : IsPrintable text) : OneLine text :=
  printable.notMem (by decide)

end OpLang
