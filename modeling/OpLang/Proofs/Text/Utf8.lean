import OpLang.Proofs.Text.Encoding

/-! # What bytes read as

Encodings in a sequence of bytes are read as their characters. Where no encoding stands, the longest
bytes that begin one are replaced, or a single byte if it begins none. These rules read every
sequence of bytes in exactly one way, and it is the way of the decoder.
-/

namespace OpLang.Utf8

/-- Some encoding begins with these bytes. -/
def Begins (bytes : List UInt8) : Prop := ∃ char : Char, bytes <+: String.utf8EncodeChar char

/-- A part in front of other bytes that is replaced: no encoding stands there, and the part is the
longest that begins one, or a single byte. -/
structure Malformed (part others : List UInt8) : Prop where
  filled : part ≠ []
  noChar : ∀ char : Char, ¬ String.utf8EncodeChar char <+: part ++ others
  begins : part.length = 1 ∨ Begins part
  longest : ∀ longer, longer <+: part ++ others → Begins longer → longer.length ≤ part.length

/-- Bytes read as characters, each encoding as its character and each malformed part as the
replacement character. -/
inductive Lossy : List UInt8 → List Char → Prop where
  | nil : Lossy [] []
  | char (char : Char) {bytes : List UInt8} {chars : List Char} (behind : Lossy bytes chars) :
    Lossy (String.utf8EncodeChar char ++ bytes) (char :: chars)
  | malformed {part bytes : List UInt8} {chars : List Char} (malformed : Malformed part bytes)
    (behind : Lossy bytes chars) : Lossy (part ++ bytes) (replacement :: chars)

/-- The characters that bytes read as behind a sequence that may be open. -/
def decodeBehind (pending? : Option Pending) (bytes : List UInt8) : List Char :=
  (bytes.foldl Decoder.push ⟨#[], pending?⟩).finish

variable {char : Char} {byte : UInt8} {pending : Pending} {pending? : Option Pending}
  {part bytes : List UInt8} {chars : List Char}

/-! ### One byte after the other -/

namespace Decoder

theorem begin_eq (chars : Array Char) (byte : UInt8) :
    begin ⟨chars, none⟩ byte =
      ⟨chars ++ (begin ⟨#[], none⟩ byte).chars, (begin ⟨#[], none⟩ byte).pending⟩ := by
  unfold begin
  split
  · simp
  · split <;> simp

/-- Characters read before have no part in what a byte does. -/
theorem push_eq (chars : Array Char) (pending? : Option Pending) (byte : UInt8) :
    push ⟨chars, pending?⟩ byte =
      ⟨chars ++ (push ⟨#[], pending?⟩ byte).chars, (push ⟨#[], pending?⟩ byte).pending⟩ := by
  cases pending? with
  | none => exact begin_eq chars byte
  | some pending =>
    simp only [push]
    split
    · split <;> simp
    · rw [begin_eq (chars.push replacement), begin_eq (Array.push #[] replacement)]
      simp

theorem finish_foldl_push (chars : Array Char) (pending? : Option Pending) (bytes : List UInt8) :
    (bytes.foldl push ⟨chars, pending?⟩).finish = chars.toList ++ decodeBehind pending? bytes := by
  induction bytes generalizing chars pending? with
  | nil => cases pending? <;> simp [decodeBehind, finish]
  | cons byte bytes ih =>
    rw [decodeBehind, List.foldl_cons, List.foldl_cons, push_eq]
    obtain ⟨read, open?⟩ := push ⟨#[], pending?⟩ byte
    rw [ih, ih, Array.toList_append, List.append_assoc]

end Decoder

theorem decode_ascii (ascii : byte < 0x80) (bytes : List UInt8) :
    decode (byte :: bytes) = Char.ofNat byte.toNat :: decode bytes := by
  have read : Decoder.push ⟨#[], none⟩ byte = ⟨#[Char.ofNat byte.toNat], none⟩ := if_pos ascii
  rw [decode, Decoder.start, List.foldl_cons, read, Decoder.finish_foldl_push]
  rfl

theorem decode_opening (notAscii : ¬ byte < 0x80) (opened : opening? byte = some pending)
    (bytes : List UInt8) : decode (byte :: bytes) = decodeBehind (some pending) bytes := by
  have read : Decoder.push ⟨#[], none⟩ byte = ⟨#[], some pending⟩ := by
    rw [Decoder.push, Decoder.begin, if_neg notAscii, opened]
  rw [decode, Decoder.start, List.foldl_cons, read, decodeBehind]

theorem decode_stray (notAscii : ¬ byte < 0x80) (stray : opening? byte = none)
    (bytes : List UInt8) : decode (byte :: bytes) = replacement :: decode bytes := by
  have read : Decoder.push ⟨#[], none⟩ byte = ⟨#[replacement], none⟩ := by
    rw [Decoder.push, Decoder.begin, if_neg notAscii, stray]
    rfl
  rw [decode, Decoder.start, List.foldl_cons, read, Decoder.finish_foldl_push]
  rfl

theorem decodeBehind_last (takes : pending.Takes byte) (lacking : pending.lacking ≤ 1)
    (bytes : List UInt8) : decodeBehind (some pending) (byte :: bytes) =
      Char.ofNat (pending.extend byte) :: decode bytes := by
  have read : Decoder.push ⟨#[], some pending⟩ byte =
      ⟨#[Char.ofNat (pending.extend byte)], none⟩ :=
    (if_pos takes).trans (if_pos lacking)
  rw [decodeBehind, List.foldl_cons, read, Decoder.finish_foldl_push]
  rfl

theorem decodeBehind_step {count : Nat} (takes : pending.Takes byte)
    (lacking : pending.lacking = count + 2) (bytes : List UInt8) :
    decodeBehind (some pending) (byte :: bytes) =
      decodeBehind (some ⟨pending.extend byte, count + 1, 0x80, 0xBF⟩) bytes := by
  have more : ¬ pending.lacking ≤ 1 := by omega
  have left : pending.lacking - 1 = count + 1 := by omega
  have read : Decoder.push ⟨#[], some pending⟩ byte =
      ⟨#[], some ⟨pending.extend byte, pending.lacking - 1, 0x80, 0xBF⟩⟩ :=
    (if_pos takes).trans (if_neg more)
  rw [decodeBehind, List.foldl_cons, read, left, decodeBehind]

/-- A byte that an open sequence does not want is read afresh. -/
theorem decodeBehind_refused (refused : ¬ pending.Takes byte) (bytes : List UInt8) :
    decodeBehind (some pending) (byte :: bytes) = replacement :: decode (byte :: bytes) := by
  have read : Decoder.push ⟨#[], some pending⟩ byte = Decoder.push ⟨#[replacement], none⟩ byte :=
    if_neg refused
  rw [decodeBehind, List.foldl_cons, read, ← List.foldl_cons, Decoder.finish_foldl_push]
  rfl

/-! ### Encodings are read as their characters -/

/-- An open sequence that goes on with an encoding is read as the character. -/
theorem decodeBehind_continuation (allows : pending.Allows char.toNat)
    (lacking : 0 < pending.lacking) (bytes : List UInt8) :
    decodeBehind (some pending) (continuation pending.lacking char.toNat ++ bytes) =
      char :: decode bytes := by
  obtain ⟨count, more⟩ := Nat.exists_eq_succ_of_ne_zero (Nat.ne_of_gt lacking)
  induction count generalizing pending with
  | zero =>
    obtain ⟨takes, value⟩ := allows.takes more rfl
    rw [more, continuation, continuation, List.singleton_append,
      decodeBehind_last takes (Nat.le_of_eq more), ← value, Nat.pow_zero, Nat.div_one,
      Char.ofNat_toNat]
  | succ count ih =>
    obtain ⟨takes, value⟩ := allows.takes more rfl
    have behind : (⟨char.toNat / 64 ^ (count + 1), count + 1, 0x80, 0xBF⟩ : Pending).Allows
        char.toNat := by
      simp only [Pending.allows_iff, UInt8.reduceToNat, true_and]
      omega
    rw [more, continuation, List.cons_append, decodeBehind_step takes more, ← value]
    exact ih behind (Nat.succ_pos count) rfl

theorem decode_encode (char : Char) (bytes : List UInt8) :
    decode (String.utf8EncodeChar char ++ bytes) = char :: decode bytes := by
  rcases encode_cases char with ⟨one, encoded⟩ | ⟨byte, pending, opened, allows, encoded⟩
  · have value : (UInt8.ofNat char.toNat).toNat = char.toNat := by
      rw [UInt8.toNat_ofNat']
      omega
    have ascii : UInt8.ofNat char.toNat < 0x80 := by
      rw [UInt8.lt_iff_toNat_lt, value]
      exact Nat.lt_succ_of_le one
    rw [encoded, List.singleton_append, decode_ascii ascii, value, Char.ofNat_toNat]
  · have opens := opens_of_opening? opened
    rw [encoded, List.cons_append, decode_opening (not_ascii_of_opening? opened) opened,
      decodeBehind_continuation allows opens.lacking]

theorem decodeBehind_ne_nil (pending : Pending) (bytes : List UInt8) :
    decodeBehind (some pending) bytes ≠ [] := by
  induction bytes generalizing pending with
  | nil => simp [decodeBehind, Decoder.finish]
  | cons byte bytes ih =>
    by_cases takes : pending.Takes byte
    · rcases Nat.lt_or_ge 1 pending.lacking with more | last
      · obtain ⟨count, lacking⟩ := Nat.exists_eq_add_of_le' more
        rw [decodeBehind_step takes lacking]
        exact ih _
      · simp [decodeBehind_last takes last]
    · simp [decodeBehind_refused takes]

/-- Bytes are never read as nothing. -/
theorem decode_eq_nil_iff : decode bytes = [] ↔ bytes = [] := by
  refine ⟨fun nothing => ?_, fun empty => by rw [empty, decode_nil]⟩
  cases bytes with
  | nil => rfl
  | cons byte bytes =>
    by_cases ascii : byte < 0x80
    · simp [decode_ascii ascii] at nothing
    cases opened : opening? byte with
    | none => simp [decode_stray ascii opened] at nothing
    | some pending =>
      rw [decode_opening ascii opened] at nothing
      exact absurd nothing (decodeBehind_ne_nil pending bytes)

/-! ### Malformed parts -/

namespace Opens

variable (opens : Opens part pending)

include opens

theorem begins : Begins part := by
  obtain ⟨char, allows⟩ := opens.exists_allowed
  refine ⟨char, ?_⟩
  rw [opens.whole char allows]
  exact List.prefix_append _ _

/-- No encoding ends where a sequence is open, as none begins another one. -/
theorem noChar (char : Char) : ¬ String.utf8EncodeChar char <+: part := by
  rintro ⟨others, rfl⟩
  obtain ⟨longer, allows⟩ := opens.exists_allowed
  have read := decode_encode longer []
  rw [opens.whole longer allows, List.append_nil, List.append_assoc, decode_encode] at read
  obtain ⟨_, nothing⟩ := List.cons.inj read
  obtain ⟨count, lacking⟩ := opens.exists_lacking
  rw [decode_nil, decode_eq_nil_iff, lacking, continuation] at nothing
  simp at nothing

/-- Behind a byte that is not wanted no encoding goes on. -/
theorem length_le_of_begins {longer : List UInt8}
    (refused : ∀ byte ∈ bytes.head?, ¬ pending.Takes byte) (inside : longer <+: part ++ bytes)
    (begins : longer <+: String.utf8EncodeChar char) :
    longer.length ≤ part.length := by
  refine Nat.le_of_not_lt fun shorter => ?_
  have within : part <+: longer :=
    List.prefix_of_prefix_length_le (List.prefix_append part bytes) inside (by omega)
  obtain ⟨others, rfl⟩ := within
  cases others with
  | nil => simp at shorter
  | cons byte others =>
    rw [List.prefix_append_right_inj] at inside
    obtain ⟨rest, rfl⟩ := inside
    obtain ⟨count, lacking⟩ := opens.exists_lacking
    have next : part ++ [byte] <+: part ++ byte :: others := by simp
    exact refused byte rfl (opens.takes_of_begins lacking (next.trans begins)).1

/-- A sequence that is left open is malformed. -/
theorem malformed (refused : ∀ byte ∈ bytes.head?, ¬ pending.Takes byte) :
    Malformed part bytes where
  filled := opens.filled
  noChar char inside := by
    have short := opens.length_le_of_begins refused inside (List.prefix_refl _)
    exact opens.noChar char
      (List.prefix_of_prefix_length_le inside (List.prefix_append part bytes) short)
  begins := .inr opens.begins
  longest longer inside begins := by
    obtain ⟨char, begins⟩ := begins
    exact opens.length_le_of_begins refused inside begins

end Opens

/-- An encoding begins with a byte that stands for itself or opens a sequence. -/
theorem Begins.head (begins : Begins (byte :: bytes)) :
    byte < 0x80 ∨ ∃ pending, opening? byte = some pending := by
  obtain ⟨char, others, encoded⟩ := begins
  rcases encode_cases char with ⟨one, same⟩ | ⟨first, pending, opened, _, same⟩
  · obtain ⟨rfl, _⟩ := List.cons.inj (encoded.trans same)
    refine .inl ?_
    have value : (UInt8.ofNat char.toNat).toNat < 0x80 := by
      rw [UInt8.toNat_ofNat']
      omega
    exact UInt8.lt_iff_toNat_lt.mpr value
  · obtain ⟨rfl, _⟩ := List.cons.inj (encoded.trans same)
    exact .inr ⟨pending, opened⟩

theorem malformed_stray (notAscii : ¬ byte < 0x80) (stray : opening? byte = none)
    (bytes : List UInt8) : Malformed [byte] bytes := by
  have noBeginning (others : List UInt8) : ¬ Begins (byte :: others) := by
    intro begins
    rcases begins.head with ascii | ⟨pending, opened⟩
    · exact notAscii ascii
    · simp [stray] at opened
  refine ⟨List.cons_ne_nil byte [], fun char inside => ?_, .inl rfl, fun longer inside begins => ?_⟩
  · obtain ⟨first, others, encoded⟩ := exists_encode_eq_cons char
    have begins : Begins (String.utf8EncodeChar char) := ⟨char, List.prefix_refl _⟩
    rw [encoded] at begins inside
    obtain ⟨rfl, _⟩ := List.cons_prefix_cons.mp inside
    exact noBeginning others begins
  · cases longer with
    | nil => exact Nat.zero_le _
    | cons first others =>
      obtain ⟨rfl, _⟩ := List.cons_prefix_cons.mp inside
      exact absurd begins (noBeginning others)

theorem Malformed.length_le {part' bytes' : List UInt8} (first : Malformed part bytes)
    (second : Malformed part' bytes') (same : part ++ bytes = part' ++ bytes') :
    part.length ≤ part'.length := by
  rcases first.begins with single | begins
  · rw [single]
    exact List.length_pos_iff.mpr second.filled
  · exact second.longest part (same ▸ List.prefix_append part bytes) begins

theorem Malformed.unique {part' bytes' : List UInt8} (first : Malformed part bytes)
    (second : Malformed part' bytes') (same : part ++ bytes = part' ++ bytes') :
    part = part' ∧ bytes = bytes' :=
  List.append_inj same
    (Nat.le_antisymm (first.length_le second same) (second.length_le first same.symm))

/-! ### The one reading -/

/-- The decoder reads bytes by the rules, also behind an open sequence. -/
theorem lossy_decode_and_decodeBehind (bytes : List UInt8) : Lossy bytes (decode bytes) ∧
    ∀ part pending, Opens part pending →
      Lossy (part ++ bytes) (decodeBehind (some pending) bytes) := by
  induction bytes with
  | nil => exact ⟨.nil, fun part pending opens => .malformed (opens.malformed (by simp)) .nil⟩
  | cons byte bytes ih =>
    obtain ⟨afresh, behind⟩ := ih
    have whole : Lossy (byte :: bytes) (decode (byte :: bytes)) := by
      by_cases ascii : byte < 0x80
      · have read := Lossy.char (Char.ofNat byte.toNat) afresh
        rw [encode_of_ascii ascii, List.singleton_append] at read
        rw [decode_ascii ascii]
        exact read
      cases opened : opening? byte with
      | none =>
        rw [decode_stray ascii opened]
        exact .malformed (malformed_stray ascii opened bytes) afresh
      | some pending =>
        rw [decode_opening ascii opened]
        exact behind [byte] pending (opens_of_opening? opened)
    -- Behind an open sequence the byte ends it, goes on with it, or is refused and read afresh.
    refine ⟨whole, fun part pending opens => ?_⟩
    by_cases takes : pending.Takes byte
    · obtain ⟨count, lacking⟩ := opens.exists_lacking
      cases count with
      | zero =>
        have read := Lossy.char (Char.ofNat (pending.extend byte)) afresh
        rw [opens.encode_last lacking takes, List.append_assoc, List.singleton_append] at read
        rw [decodeBehind_last takes (Nat.le_of_eq lacking)]
        exact read
      | succ count =>
        have read := behind _ _ (opens.step lacking takes)
        rw [List.append_assoc, List.singleton_append] at read
        rw [decodeBehind_step takes lacking]
        exact read
    · rw [decodeBehind_refused takes]
      exact .malformed (opens.malformed (by simpa using takes)) whole

theorem Lossy.unique {chars' : List Char} (first : Lossy bytes chars)
    (second : Lossy bytes chars') : chars = chars' := by
  induction first generalizing chars' with
  | nil =>
    generalize whole : ([] : List UInt8) = input at second
    cases second with
    | nil => rfl
    | char char' =>
      have read := congrArg decode whole
      simp [decode_encode] at read
    | malformed malformed' =>
      exact absurd (List.append_eq_nil_iff.mp whole.symm).1 malformed'.filled
  | @char char bytes _ _ ih =>
    generalize whole : String.utf8EncodeChar char ++ bytes = input at second
    cases second with
    | nil =>
      have read := congrArg decode whole
      simp [decode_encode] at read
    | @char char' bytes' _ behind' =>
      have read := congrArg decode whole
      rw [decode_encode, decode_encode] at read
      obtain ⟨rfl, _⟩ := List.cons.inj read
      obtain rfl := List.append_cancel_left whole
      rw [ih behind']
    | malformed malformed' =>
      exact absurd (whole ▸ List.prefix_append _ _) (malformed'.noChar char)
  | @malformed part bytes _ malformed _ ih =>
    generalize whole : part ++ bytes = input at second
    cases second with
    | nil => exact absurd (List.append_eq_nil_iff.mp whole).1 malformed.filled
    | char char' => exact absurd (whole ▸ List.prefix_append _ _) (malformed.noChar char')
    | malformed malformed' behind' =>
      obtain ⟨_, rfl⟩ := malformed.unique malformed' whole
      rw [ih behind']

/-- Bytes are read by the rules in one way, and this is what the decoder reads. -/
theorem lossy_iff : Lossy bytes chars ↔ chars = decode bytes := by
  refine ⟨fun lossy => lossy.unique (lossy_decode_and_decodeBehind bytes).1, fun same => ?_⟩
  rw [same]
  exact (lossy_decode_and_decodeBehind bytes).1

/-! ### Bytes behind an ASCII character -/

namespace Decoder

/-- What an open sequence wants is no ASCII character. -/
def Guarded (decoder : Decoder) : Prop := ∀ pending ∈ decoder.pending, 0x80 ≤ pending.least

theorem guarded_begin (decoder : Decoder) (byte : UInt8) : (decoder.begin byte).Guarded := by
  unfold begin
  split
  · simp [Guarded]
  · cases opened : opening? byte with
    | none => simp [Guarded]
    | some pending =>
      simp only [Guarded, Option.mem_def, Option.some.injEq, forall_eq']
      exact UInt8.le_iff_toNat_le.mpr (opens_of_opening? opened).least

theorem guarded_push (decoder : Decoder) (byte : UInt8) : (decoder.push byte).Guarded := by
  unfold push
  split
  · exact guarded_begin decoder byte
  · dsimp only
    split
    · split <;> simp [Guarded]
    · exact guarded_begin _ byte

theorem guarded_foldl_push {decoder : Decoder} (guarded : decoder.Guarded) (bytes : List UInt8) :
    (bytes.foldl push decoder).Guarded := by
  induction bytes generalizing decoder with
  | nil => exact guarded
  | cons byte bytes ih => exact ih (guarded_push decoder byte)

theorem guarded_read (bytes : List UInt8) : (bytes.foldl Decoder.push .start).Guarded :=
  guarded_foldl_push (by simp [Guarded, start]) bytes

/-- An ASCII character is read at once, behind a replacement character if a sequence was open. -/
theorem exists_push_ascii {decoder : Decoder} (guarded : decoder.Guarded) (ascii : byte < 0x80) :
    ∃ chars : Array Char, decoder.push byte = ⟨chars.push (Char.ofNat byte.toNat), none⟩ := by
  unfold push
  split
  · exact ⟨decoder.chars, if_pos ascii⟩
  · next pending open_ =>
    have notTaken : ¬ (pending.least ≤ byte ∧ byte ≤ pending.greatest) := fun takes =>
      absurd (UInt8.le_trans (guarded pending open_) takes.1) (UInt8.not_le.mpr ascii)
    refine ⟨decoder.chars.push replacement, ?_⟩
    rw [if_neg notTaken]
    exact if_pos ascii

/-- An ASCII character leaves no sequence open. -/
theorem pending_push_ascii {decoder : Decoder} (guarded : decoder.Guarded) (ascii : byte < 0x80) :
    (decoder.push byte).pending = none := by
  obtain ⟨_, pushed⟩ := exists_push_ascii guarded ascii
  rw [pushed]

end Decoder

/-- Bytes may be cut where no sequence is open, and the pieces be read by themselves. -/
theorem decode_append_of_closed {front : List UInt8} (behind : List UInt8)
    (closed : (front.foldl Decoder.push .start).pending = none) :
    decode (front ++ behind) = decode front ++ decode behind := by
  rw [decode, decode, List.foldl_append]
  generalize front.foldl Decoder.push .start = decoder at closed
  obtain ⟨chars, pending?⟩ := decoder
  obtain rfl : pending? = none := closed
  rw [Decoder.finish_foldl_push]
  rfl

/-- No sequence goes over an ASCII character. -/
theorem decode_append_of_ascii (front : List UInt8) (ascii : byte < 0x80) (behind : List UInt8) :
    decode ((front ++ [byte]) ++ behind) = decode (front ++ [byte]) ++ decode behind := by
  refine decode_append_of_closed behind ?_
  rw [List.foldl_append, List.foldl_cons, List.foldl_nil]
  exact Decoder.pending_push_ascii (Decoder.guarded_read front) ascii

/-- Whatever stands in front of it, an ASCII character at the end is the last one read. -/
theorem getLast?_decode_of_ascii (front : List UInt8) (ascii : byte < 0x80) :
    (decode (front ++ [byte])).getLast? = some (Char.ofNat byte.toNat) := by
  obtain ⟨chars, pushed⟩ := Decoder.exists_push_ascii (Decoder.guarded_read front) ascii
  rw [decode, List.foldl_append, List.foldl_cons, List.foldl_nil, pushed]
  simp [Decoder.finish]

end OpLang.Utf8
