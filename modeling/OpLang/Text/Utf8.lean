/-! # Reading bytes as UTF-8

Every sequence of bytes has a reading. Bytes that are not well formed are replaced, one replacement
character for each maximal run that begins some well-formed sequence, or for a single byte that
begins none. The decoder takes one byte at a time, so a text may be cut anywhere between bytes.
-/

namespace OpLang.Utf8

/-- The character that stands for bytes that are not well formed. -/
def replacement : Char := '\uFFFD'

/-- A sequence that has begun: the bits read so far, how many bytes it still lacks, and the range
in which the next one has to lie. -/
structure Pending where
  value : Nat
  lacking : Nat
  least : UInt8
  greatest : UInt8
deriving DecidableEq, Repr

/-- What a byte begins that is not a character by itself. The second byte is bounded so that no
overlong form, surrogate or code point past the last one is ever well formed. -/
def opening? (byte : UInt8) : Option Pending :=
  if 0xC2 ≤ byte ∧ byte ≤ 0xDF then some ⟨byte.toNat - 0xC0, 1, 0x80, 0xBF⟩
  else if byte = 0xE0 then some ⟨0x0, 2, 0xA0, 0xBF⟩
  else if byte = 0xED then some ⟨0xD, 2, 0x80, 0x9F⟩
  else if 0xE1 ≤ byte ∧ byte ≤ 0xEF then some ⟨byte.toNat - 0xE0, 2, 0x80, 0xBF⟩
  else if byte = 0xF0 then some ⟨0x0, 3, 0x90, 0xBF⟩
  else if byte = 0xF4 then some ⟨0x4, 3, 0x80, 0x8F⟩
  else if 0xF1 ≤ byte ∧ byte ≤ 0xF3 then some ⟨byte.toNat - 0xF0, 3, 0x80, 0xBF⟩
  else none

/-- The characters read so far and the sequence that is open. -/
structure Decoder where
  chars : Array Char
  pending : Option Pending
deriving DecidableEq, Repr

namespace Decoder

/-- A decoder that has read nothing. -/
def start : Decoder := ⟨#[], none⟩

/-- Read a byte that continues nothing. -/
def begin (decoder : Decoder) (byte : UInt8) : Decoder :=
  if byte < 0x80 then ⟨decoder.chars.push (Char.ofNat byte.toNat), none⟩
  else match opening? byte with
    | some pending => ⟨decoder.chars, some pending⟩
    | none => ⟨decoder.chars.push replacement, none⟩

/-- Read a byte. One that does not continue the open sequence closes it as not well formed, and is
then read afresh. -/
def push (decoder : Decoder) (byte : UInt8) : Decoder :=
  match decoder.pending with
  | none => decoder.begin byte
  | some pending =>
    if pending.least ≤ byte ∧ byte ≤ pending.greatest then
      let value := pending.value * 64 + (byte.toNat - 0x80)
      if pending.lacking ≤ 1 then ⟨decoder.chars.push (Char.ofNat value), none⟩
      else ⟨decoder.chars, some ⟨value, pending.lacking - 1, 0x80, 0xBF⟩⟩
    else begin ⟨decoder.chars.push replacement, none⟩ byte

/-- The characters when the bytes end here: a sequence still open is not well formed. -/
def finish (decoder : Decoder) : List Char :=
  match decoder.pending with
  | none => decoder.chars.toList
  | some _ => (decoder.chars.push replacement).toList

/-- How many characters the decoder stands for if it ends here. -/
def size (decoder : Decoder) : Nat :=
  decoder.chars.size + if decoder.pending.isSome then 1 else 0

theorem length_finish (decoder : Decoder) : decoder.finish.length = decoder.size := by
  cases pending : decoder.pending <;> simp [finish, size, pending]

theorem size_begin_le (decoder : Decoder) (byte : UInt8) :
    (decoder.begin byte).size ≤ decoder.chars.size + 1 := by
  unfold begin
  split
  · simp [size]
  · split <;> simp [size]

/-- A byte adds at most one character. -/
theorem size_push_le (decoder : Decoder) (byte : UInt8) :
    (decoder.push byte).size ≤ decoder.size + 1 := by
  unfold push
  split
  · next none => exact Nat.le_trans (size_begin_le decoder byte) (by simp [size, none])
  · next some =>
    dsimp only
    split
    · split <;> simp [size, some]
    · exact Nat.le_trans (size_begin_le _ byte) (by simp [size, some])

theorem size_foldl_push_le (bytes : List UInt8) (decoder : Decoder) :
    (bytes.foldl push decoder).size ≤ decoder.size + bytes.length := by
  induction bytes generalizing decoder with
  | nil => simp
  | cons byte bytes ih =>
    have step := size_push_le decoder byte
    have rest := ih (decoder.push byte)
    simp only [List.foldl_cons, List.length_cons]
    omega

end Decoder

/-- The characters that a sequence of bytes reads as. -/
def decode (bytes : List UInt8) : List Char := (bytes.foldl Decoder.push Decoder.start).finish

@[simp] theorem decode_nil : decode [] = [] := rfl

/-- A sequence of bytes has at most one character for each byte. -/
theorem length_decode_le (bytes : List UInt8) : (decode bytes).length ≤ bytes.length := by
  rw [decode, Decoder.length_finish]
  exact Nat.le_trans (Decoder.size_foldl_push_le bytes Decoder.start)
    (by simp [Decoder.size, Decoder.start])

end OpLang.Utf8
