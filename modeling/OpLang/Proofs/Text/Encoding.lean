import Mathlib.Algebra.Group.Nat.Defs
import Mathlib.Tactic.SplitIfs
import OpLang.Text.Utf8

/-! # Encodings and their beginnings

A character is encoded by up to four bytes. The first tells how many there are, the others carry six
bits each. A sequence is open after exactly those bytes with which the encodings of some characters
begin, and it then wants exactly the bytes with which those encodings go on.
-/

namespace OpLang.Utf8

/-- The lowest groups of six bits of a number as bytes, the highest group first. -/
def continuation : Nat → Nat → List UInt8
  | 0, _ => []
  | count + 1, number =>
    UInt8.ofNat (number / 64 ^ count % 64 + 0x80) :: continuation count number

/-- The numbers that an open sequence can still come to. -/
structure Pending.Allows (pending : Pending) (number : Nat) : Prop where
  value : number / 64 ^ pending.lacking = pending.value
  least : pending.least.toNat ≤ number / 64 ^ (pending.lacking - 1) % 64 + 0x80
  greatest : number / 64 ^ (pending.lacking - 1) % 64 + 0x80 ≤ pending.greatest.toNat

theorem Pending.allows_iff {number value lacking : Nat} {least greatest : UInt8} :
    (⟨value, lacking, least, greatest⟩ : Pending).Allows number ↔
      number / 64 ^ lacking = value ∧
        least.toNat ≤ number / 64 ^ (lacking - 1) % 64 + 0x80 ∧
          number / 64 ^ (lacking - 1) % 64 + 0x80 ≤ greatest.toNat :=
  ⟨fun ⟨value, least, greatest⟩ => ⟨value, least, greatest⟩,
    fun ⟨value, least, greatest⟩ => ⟨value, least, greatest⟩⟩

variable {char : Char} {byte : UInt8} {pending : Pending} {part : List UInt8}

/-! ### Encodings by their length -/

theorem toNat_bounds (char : Char) :
    char.toNat < 0xD800 ∨ 0xDFFF < char.toNat ∧ char.toNat < 0x110000 := char.valid

theorem toNat_ofNat_of_valid {number : Nat} (valid : number.isValidChar) :
    (Char.ofNat number).toNat = number := by
  rw [Char.ofNat, dif_pos valid]
  rfl

theorem encode_one (below : char.toNat ≤ 0x7F) :
    String.utf8EncodeChar char = [UInt8.ofNat char.toNat] := by
  simp only [String.utf8EncodeChar, Char.toNat_val, if_pos below]

theorem encode_two (above : 0x7F < char.toNat) (below : char.toNat ≤ 0x7FF) :
    String.utf8EncodeChar char =
      UInt8.ofNat (char.toNat / 64 + 0xC0) :: continuation 1 char.toNat := by
  have lead : char.toNat / 64 % 32 = char.toNat / 64 := by omega
  simp only [String.utf8EncodeChar, Char.toNat_val, if_neg (Nat.not_le.mpr above), if_pos below,
    lead, continuation, Nat.pow_zero, Nat.div_one]

theorem encode_three (above : 0x7FF < char.toNat) (below : char.toNat ≤ 0xFFFF) :
    String.utf8EncodeChar char =
      UInt8.ofNat (char.toNat / 4096 + 0xE0) :: continuation 2 char.toNat := by
  have notOne : ¬ char.toNat ≤ 0x7F := by omega
  have lead : char.toNat / 4096 % 16 = char.toNat / 4096 := by omega
  simp only [String.utf8EncodeChar, Char.toNat_val, if_neg notOne, if_neg (Nat.not_le.mpr above),
    if_pos below, lead, continuation, Nat.pow_zero, Nat.div_one, Nat.pow_one]

theorem encode_four (above : 0xFFFF < char.toNat) :
    String.utf8EncodeChar char =
      UInt8.ofNat (char.toNat / 262144 + 0xF0) :: continuation 3 char.toNat := by
  have bounds := toNat_bounds char
  have notOne : ¬ char.toNat ≤ 0x7F := by omega
  have notTwo : ¬ char.toNat ≤ 0x7FF := by omega
  have lead : char.toNat / 262144 % 8 = char.toNat / 262144 := by omega
  simp only [String.utf8EncodeChar, Char.toNat_val, if_neg notOne, if_neg notTwo,
    if_neg (Nat.not_le.mpr above), lead, continuation, Nat.pow_zero, Nat.div_one, Nat.pow_one,
    Nat.reducePow]

theorem encode_of_ascii (ascii : byte < 0x80) :
    String.utf8EncodeChar (Char.ofNat byte.toNat) = [byte] := by
  have below : byte.toNat < 0x80 := UInt8.lt_iff_toNat_lt.mp ascii
  have value : (Char.ofNat byte.toNat).toNat = byte.toNat :=
    toNat_ofNat_of_valid (.inl (by omega))
  rw [encode_one (by omega), value, UInt8.ofNat_toNat]

theorem exists_encode_eq_cons (char : Char) :
    ∃ byte others, String.utf8EncodeChar char = byte :: others := by
  refine List.exists_cons_of_ne_nil (List.ne_nil_of_length_pos ?_)
  rw [String.length_utf8EncodeChar]
  exact char.utf8Size_pos

/-- The first byte of an encoding tells how long it is and how the character begins. -/
theorem toNat_head {others : List UInt8} (encoded : String.utf8EncodeChar char = byte :: others) :
    (char.toNat ≤ 0x7F ∧ byte.toNat = char.toNat) ∨
    (0x7F < char.toNat ∧ char.toNat ≤ 0x7FF ∧ byte.toNat = char.toNat / 64 + 0xC0) ∨
    (0x7FF < char.toNat ∧ char.toNat ≤ 0xFFFF ∧ byte.toNat = char.toNat / 4096 + 0xE0) ∨
    (0xFFFF < char.toNat ∧ byte.toNat = char.toNat / 262144 + 0xF0) := by
  have bounds := toNat_bounds char
  rcases Nat.lt_or_ge 0x7F char.toNat with one | one
  · rcases Nat.lt_or_ge 0x7FF char.toNat with two | two
    · rcases Nat.lt_or_ge 0xFFFF char.toNat with three | three
      · obtain ⟨rfl, _⟩ := List.cons.inj ((encode_four three).symm.trans encoded)
        rw [UInt8.toNat_ofNat']
        omega
      · obtain ⟨rfl, _⟩ := List.cons.inj ((encode_three two three).symm.trans encoded)
        rw [UInt8.toNat_ofNat']
        omega
    · obtain ⟨rfl, _⟩ := List.cons.inj ((encode_two one two).symm.trans encoded)
      rw [UInt8.toNat_ofNat']
      omega
  · obtain ⟨rfl, _⟩ := List.cons.inj ((encode_one one).symm.trans encoded)
    rw [UInt8.toNat_ofNat']
    omega

/-! ### Open sequences -/

/-- Bytes that begin the encodings of exactly the characters that an open sequence allows. -/
structure Opens (part : List UInt8) (pending : Pending) : Prop where
  filled : part ≠ []
  lacking : 0 < pending.lacking
  least : 0x80 ≤ pending.least.toNat
  range : pending.least.toNat ≤ pending.greatest.toNat
  greatest : pending.greatest.toNat ≤ 0xBF
  valid : ∀ number, pending.Allows number → number.isValidChar
  whole : ∀ char : Char, pending.Allows char.toNat →
    String.utf8EncodeChar char = part ++ continuation pending.lacking char.toNat
  allows : ∀ char : Char, part <+: String.utf8EncodeChar char → pending.Allows char.toNat

theorem opens_two {value : Nat} (lead : byte.toNat = value + 0xC0) (least : 2 ≤ value)
    (greatest : value ≤ 0x1F) : Opens [byte] ⟨value, 1, 0x80, 0xBF⟩ where
  filled := List.cons_ne_nil byte []
  lacking := Nat.one_pos
  least := Nat.le_refl _
  range := Nat.le_add_right 0x80 0x3F
  greatest := Nat.le_refl _
  valid number allows := by
    simp only [Pending.allows_iff] at allows
    unfold Nat.isValidChar
    omega
  whole char allows := by
    simp only [Pending.allows_iff, Nat.pow_one] at allows
    rw [encode_two (by omega) (by omega), allows.1, ← lead, UInt8.ofNat_toNat,
      List.singleton_append]
  allows char begins := by
    obtain ⟨others, encoded⟩ := begins
    have head := toNat_head encoded.symm
    simp only [Pending.allows_iff, UInt8.reduceToNat]
    omega

/-- The second of three bytes is bounded so that the character is neither shorter nor a surrogate.
-/
theorem opens_three {value : Nat} {least greatest : UInt8} (lead : byte.toNat = value + 0xE0)
    (below : value ≤ 0xF)
    (leasts : value = 0 ∧ least.toNat = 0xA0 ∨ 0 < value ∧ least.toNat = 0x80)
    (greatests : value = 0xD ∧ greatest.toNat = 0x9F ∨ value ≠ 0xD ∧ greatest.toNat = 0xBF) :
    Opens [byte] ⟨value, 2, least, greatest⟩ where
  filled := List.cons_ne_nil byte []
  lacking := Nat.two_pos
  least := by dsimp only; omega
  range := by dsimp only; omega
  greatest := by dsimp only; omega
  valid number allows := by
    simp only [Pending.allows_iff] at allows
    unfold Nat.isValidChar
    omega
  whole char allows := by
    simp only [Pending.allows_iff, Nat.reducePow] at allows
    rw [encode_three (by omega) (by omega), allows.1, ← lead, UInt8.ofNat_toNat,
      List.singleton_append]
  allows char begins := by
    obtain ⟨others, encoded⟩ := begins
    have head := toNat_head encoded.symm
    have bounds := toNat_bounds char
    simp only [Pending.allows_iff]
    omega

/-- The second of four bytes is bounded so that the character is neither shorter nor past the last.
-/
theorem opens_four {value : Nat} {least greatest : UInt8} (lead : byte.toNat = value + 0xF0)
    (below : value ≤ 4)
    (leasts : value = 0 ∧ least.toNat = 0x90 ∨ 0 < value ∧ least.toNat = 0x80)
    (greatests : value = 4 ∧ greatest.toNat = 0x8F ∨ value < 4 ∧ greatest.toNat = 0xBF) :
    Opens [byte] ⟨value, 3, least, greatest⟩ where
  filled := List.cons_ne_nil byte []
  lacking := Nat.succ_pos 2
  least := by dsimp only; omega
  range := by dsimp only; omega
  greatest := by dsimp only; omega
  valid number allows := by
    simp only [Pending.allows_iff] at allows
    unfold Nat.isValidChar
    omega
  whole char allows := by
    simp only [Pending.allows_iff, Nat.reducePow] at allows
    rw [encode_four (by omega), allows.1, ← lead, UInt8.ofNat_toNat, List.singleton_append]
  allows char begins := by
    obtain ⟨others, encoded⟩ := begins
    have head := toNat_head encoded.symm
    have bounds := toNat_bounds char
    simp only [Pending.allows_iff]
    omega

theorem opens_of_opening? (opened : opening? byte = some pending) : Opens [byte] pending := by
  simp only [opening?, UInt8.le_iff_toNat_le, ← UInt8.toNat_inj, UInt8.reduceToNat] at opened
  split_ifs at opened
  -- One case for each row of first bytes: one of two, three of three and three of four.
  · obtain rfl := Option.some.inj opened
    exact opens_two (by omega) (by omega) (by omega)
  · obtain rfl := Option.some.inj opened
    exact opens_three (by omega) (by omega) (.inl ⟨rfl, rfl⟩) (.inr ⟨by omega, rfl⟩)
  · obtain rfl := Option.some.inj opened
    exact opens_three (by omega) (by omega) (.inr ⟨by omega, rfl⟩) (.inl ⟨rfl, rfl⟩)
  · obtain rfl := Option.some.inj opened
    exact opens_three (by omega) (by omega) (.inr ⟨by omega, rfl⟩) (.inr ⟨by omega, rfl⟩)
  · obtain rfl := Option.some.inj opened
    exact opens_four (by omega) (by omega) (.inl ⟨rfl, rfl⟩) (.inr ⟨by omega, rfl⟩)
  · obtain rfl := Option.some.inj opened
    exact opens_four (by omega) (by omega) (.inr ⟨by omega, rfl⟩) (.inl ⟨rfl, rfl⟩)
  · obtain rfl := Option.some.inj opened
    exact opens_four (by omega) (by omega) (.inr ⟨by omega, rfl⟩) (.inr ⟨by omega, rfl⟩)

theorem exists_opening? (least : 0xC2 ≤ byte.toNat) (greatest : byte.toNat ≤ 0xF4) :
    ∃ pending, opening? byte = some pending := by
  simp only [opening?, UInt8.le_iff_toNat_le, ← UInt8.toNat_inj, UInt8.reduceToNat]
  split_ifs
  any_goals exact ⟨_, rfl⟩
  omega

theorem not_ascii_of_opening? (opened : opening? byte = some pending) : ¬ byte < 0x80 := by
  intro ascii
  simp only [UInt8.lt_iff_toNat_lt, UInt8.reduceToNat] at ascii
  simp only [opening?, UInt8.le_iff_toNat_le, ← UInt8.toNat_inj, UInt8.reduceToNat] at opened
  split_ifs at opened
  all_goals omega

/-- A character has one byte, or its first byte opens a sequence that allows it. -/
theorem encode_cases (char : Char) :
    (char.toNat ≤ 0x7F ∧ String.utf8EncodeChar char = [UInt8.ofNat char.toNat]) ∨
      ∃ byte pending, opening? byte = some pending ∧ pending.Allows char.toNat ∧
        String.utf8EncodeChar char = byte :: continuation pending.lacking char.toNat := by
  rcases Nat.lt_or_ge 0x7F char.toNat with longer | one
  · refine .inr ?_
    obtain ⟨byte, others, encoded⟩ := exists_encode_eq_cons char
    have head := toNat_head encoded
    have bounds := toNat_bounds char
    obtain ⟨pending, opened⟩ := @exists_opening? byte (by omega) (by omega)
    have opens := opens_of_opening? opened
    have allows := opens.allows char ⟨others, by rw [encoded, List.singleton_append]⟩
    exact ⟨byte, pending, opened, allows, opens.whole char allows⟩
  · exact .inl ⟨one, encode_one one⟩

/-! ### Going on with an open sequence -/

namespace Pending

/-- The byte is one that the open sequence wants. -/
def Takes (pending : Pending) (byte : UInt8) : Prop :=
  pending.least ≤ byte ∧ byte ≤ pending.greatest

/-- The bits of an open sequence and of one more byte. -/
def extend (pending : Pending) (byte : UInt8) : Nat := pending.value * 64 + (byte.toNat - 0x80)

/-- The byte with which the encoding of an allowed number goes on. -/
theorem Allows.takes {count number : Nat} (allows : pending.Allows number)
    (lacking : pending.lacking = count + 1)
    (same : byte = UInt8.ofNat (number / 64 ^ count % 64 + 0x80)) :
    pending.Takes byte ∧ number / 64 ^ count = pending.extend byte := by
  obtain ⟨value, least, greatest⟩ := allows
  simp only [lacking, Nat.pow_succ, ← Nat.div_div_eq_div_mul] at value
  simp only [lacking, Nat.add_sub_cancel] at least greatest
  have digit := congrArg UInt8.toNat same
  rw [UInt8.toNat_ofNat'] at digit
  unfold extend
  refine ⟨⟨UInt8.le_iff_toNat_le.mpr ?_, UInt8.le_iff_toNat_le.mpr ?_⟩, ?_⟩
  all_goals omega

end Pending

namespace Opens

theorem exists_lacking (opens : Opens part pending) : ∃ count, pending.lacking = count + 1 :=
  Nat.exists_eq_succ_of_ne_zero (Nat.ne_of_gt opens.lacking)

theorem bounds (opens : Opens part pending) (takes : pending.Takes byte) :
    0x80 ≤ byte.toNat ∧ byte.toNat ≤ 0xBF :=
  ⟨Nat.le_trans opens.least (UInt8.le_iff_toNat_le.mp takes.1),
    Nat.le_trans (UInt8.le_iff_toNat_le.mp takes.2) opens.greatest⟩

/-- The byte with which an encoding goes on is one that the open sequence wants. -/
theorem takes_of_begins {count : Nat} (opens : Opens part pending)
    (lacking : pending.lacking = count + 1)
    (begins : part ++ [byte] <+: String.utf8EncodeChar char) :
    pending.Takes byte ∧ char.toNat / 64 ^ count = pending.extend byte := by
  have allows := opens.allows char ((List.prefix_append part [byte]).trans begins)
  rw [opens.whole char allows, List.prefix_append_right_inj, lacking, continuation] at begins
  exact allows.takes lacking (List.cons_prefix_cons.mp begins).1

/-- A wanted byte and the bits so far tell a number that the open sequence allows. -/
theorem allows_of_takes {count number : Nat} (opens : Opens part pending)
    (lacking : pending.lacking = count + 1) (takes : pending.Takes byte)
    (value : number / 64 ^ count = pending.extend byte) :
    pending.Allows number ∧ UInt8.ofNat (number / 64 ^ count % 64 + 0x80) = byte := by
  have bounds := opens.bounds takes
  obtain ⟨least, greatest⟩ := takes
  rw [UInt8.le_iff_toNat_le] at least greatest
  unfold Pending.extend at value
  have digit : number / 64 ^ count % 64 + 0x80 = byte.toNat := by omega
  refine ⟨⟨?_, ?_, ?_⟩, by rw [digit, UInt8.ofNat_toNat]⟩
  · simp only [lacking, Nat.pow_succ, ← Nat.div_div_eq_div_mul]
    omega
  · rw [lacking, Nat.add_sub_cancel, digit]
    exact least
  · rw [lacking, Nat.add_sub_cancel, digit]
    exact greatest

theorem step {count : Nat} (opens : Opens part pending) (lacking : pending.lacking = count + 2)
    (takes : pending.Takes byte) :
    Opens (part ++ [byte]) ⟨pending.extend byte, count + 1, 0x80, 0xBF⟩ where
  filled := List.append_ne_nil_of_left_ne_nil opens.filled [byte]
  lacking := Nat.succ_pos count
  least := Nat.le_refl _
  range := Nat.le_add_right 0x80 0x3F
  greatest := Nat.le_refl _
  valid number allows := opens.valid number (opens.allows_of_takes lacking takes allows.value).1
  whole char allows := by
    obtain ⟨allowed, digit⟩ := opens.allows_of_takes lacking takes allows.value
    rw [opens.whole char allowed, lacking, continuation, digit, List.append_assoc,
      List.singleton_append]
  allows char begins := by
    have value := (opens.takes_of_begins lacking begins).2
    simp only [Pending.allows_iff, UInt8.reduceToNat]
    omega

/-- The last wanted byte ends the encoding of a character. -/
theorem encode_last (opens : Opens part pending) (lacking : pending.lacking = 1)
    (takes : pending.Takes byte) :
    String.utf8EncodeChar (Char.ofNat (pending.extend byte)) = part ++ [byte] := by
  have value : pending.extend byte / 64 ^ 0 = pending.extend byte := by
    rw [Nat.pow_zero, Nat.div_one]
  obtain ⟨allowed, digit⟩ := opens.allows_of_takes lacking takes value
  have same : (Char.ofNat (pending.extend byte)).toNat = pending.extend byte :=
    toNat_ofNat_of_valid (opens.valid _ allowed)
  have encoded := opens.whole (Char.ofNat (pending.extend byte)) (by rw [same]; exact allowed)
  rw [encoded, same, lacking, continuation, digit, continuation]

/-- Some encoding goes on as an open sequence wants it. -/
theorem exists_allowed (opens : Opens part pending) : ∃ char : Char, pending.Allows char.toNat := by
  obtain ⟨count, lacking⟩ := opens.exists_lacking
  have takes : pending.Takes pending.least :=
    ⟨UInt8.le_iff_toNat_le.mpr (Nat.le_refl _), UInt8.le_iff_toNat_le.mpr opens.range⟩
  have value : pending.extend pending.least * 64 ^ count / 64 ^ count =
      pending.extend pending.least := Nat.mul_div_cancel _ (Nat.pow_pos (by decide))
  have allowed := (opens.allows_of_takes lacking takes value).1
  refine ⟨Char.ofNat (pending.extend pending.least * 64 ^ count), ?_⟩
  rw [toNat_ofNat_of_valid (opens.valid _ allowed)]
  exact allowed

end Opens

end OpLang.Utf8
