import OpLang.Proofs.Text.Printable

/-! # Texts of small characters

A character of ASCII takes one byte. So a text of such characters has as many bytes as characters,
and wherever it is cut, nothing is lost between two characters.
-/

namespace OpLang

/-- Every character of the text takes one byte. -/
def IsAscii (text : String) : Prop := ∀ char ∈ text.toList, char.utf8Size = 1

instance (text : String) : Decidable (IsAscii text) :=
  List.decidableBAll (fun char : Char => char.utf8Size = 1) text.toList

theorem utf8Size_of_toNat_lt {char : Char} (small : char.toNat < 128) : char.utf8Size = 1 :=
  Char.utf8Size_eq_one_iff.mpr (UInt32.le_iff_toNat_le.mpr (Nat.le_of_lt_succ small))

theorem IsPrintable.isAscii {text : String} (printable : IsPrintable text) : IsAscii text := by
  intro char member
  have bounds := isPrintable_iff.mp (printable char member)
  exact utf8Size_of_toNat_lt (by omega)

namespace IsAscii

variable {text other : String}

theorem append (first : IsAscii text) (second : IsAscii other) : IsAscii (text ++ other) := by
  rw [IsAscii, String.toList_append]
  exact List.forall_mem_append.mpr ⟨first, second⟩

theorem join {texts : List String} (all : ∀ text ∈ texts, IsAscii text) :
    IsAscii (String.join texts) := by
  rw [IsAscii, String.toList_join]
  exact List.forall_mem_flatMap.mpr all

/-- Bytes and characters are counted alike. -/
theorem utf8ByteSize_eq (ascii : IsAscii text) : text.utf8ByteSize = text.toList.length := by
  have bytes (chars : List Char) (small : ∀ char ∈ chars, char.utf8Size = 1) :
      (String.ofList chars).utf8ByteSize = chars.length := by
    induction chars with
    | nil => rfl
    | cons char chars ih =>
      obtain ⟨first, others⟩ := List.forall_mem_cons.mp small
      rw [String.ofList_cons, String.utf8ByteSize_append, String.utf8ByteSize_singleton, first,
        ih others, List.length_cons, Nat.add_comm]
  rw [← bytes text.toList ascii, String.ofList_toList]

end IsAscii

end OpLang
