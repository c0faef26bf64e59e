import OpLang.Proofs.Source.Ahead
import OpLang.Proofs.Source.Delivery

/-! # Cuts that do not show

As long as the input neither fails nor pretends to end, a reader hands out what the whole sequence
of bytes reads as. Where the bytes were cut into answers does not matter, as a reading puts them
together again, and that each line is read by itself does not matter either, as no malformed part
goes over a newline.
-/

namespace OpLang

/-- An answer that neither fails nor pretends that the input ends. -/
def Fill.Steady : Fill → Prop
  | .bytes chunk => chunk ≠ []
  | .interrupted => True
  | .failed _ => False

variable {chunk : List UInt8} {script : List Fill}

/-- A reading does not fail, leaves answers of a kind, and ends with a newline or takes everything.
-/
def LineRead.Leaves (kind : List Fill → Prop) (read : LineRead) : Prop :=
  read.failure? = none ∧ kind read.script ∧
    ((∃ front, read.bytes = front ++ [newline]) ∨ read.left = [])

theorem LineRead.Leaves.after {kind : List Fill → Prop} {read : LineRead}
    (leaves : read.Leaves kind) (earlier : List UInt8) : (read.after earlier).Leaves kind := by
  obtain ⟨sound, others, ended⟩ := leaves
  refine ⟨sound, others, ?_⟩
  rcases ended with ⟨front, whole⟩ | nothing
  · refine .inl ⟨earlier ++ front, ?_⟩
    rw [LineRead.bytes_after, whole, List.append_assoc]
  · exact .inr nothing

/-- A reading of steady answers ends with a newline or takes everything. -/
theorem readLine_of_steady (steady : ∀ fill ∈ script, fill.Steady) (chunk : List UInt8) :
    (readLine chunk script).Leaves fun script => ∀ fill ∈ script, fill.Steady := by
  fun_induction readLine chunk script with
  | case1 => exact ⟨rfl, steady, .inl ⟨_, rfl⟩⟩
  | case2 => exact ⟨rfl, steady, .inr rfl⟩
  | case3 => exact absurd rfl (List.forall_mem_cons.mp steady).1
  | case4 chunk _ byte bytes script ih | case5 chunk _ script ih =>
    exact (ih (List.forall_mem_cons.mp steady).2).after chunk
  | case6 => exact absurd (List.forall_mem_cons.mp steady).1 id

/-- Every reading of answers of this kind leaves such answers. -/
def Fill.ReadsOn (kind : List Fill → Prop) : Prop :=
  ∀ script, kind script → ∀ chunk, (readLine chunk script).Leaves kind

/-- Reading each line by itself is reading the whole. -/
theorem Fill.ReadsOn.decode {kind : List Fill → Prop} (on : ReadsOn kind) (holds : kind script)
    (chunk : List UInt8) :
    Utf8.decode (chunk ++ Fill.delivered script) = (readings chunk script).chars := by
  fun_induction readings chunk script with
  | case1 chunk script read _ others ih =>
    obtain ⟨_, holds', ended⟩ := on script holds chunk
    have apart : Utf8.decode (read.bytes ++ read.left) =
        Utf8.decode read.bytes ++ Utf8.decode read.left := by
      rcases ended with ⟨front, ended⟩ | nothing
      · rw [ended]
        exact Utf8.decode_append_of_ascii front (by decide) read.left
      · rw [nothing, List.append_nil, Utf8.decode_nil, List.append_nil]
    rw [← bytes_append_left, apart, Readings.chars, List.flatMap_cons]
    exact congrArg (Utf8.decode read.bytes ++ ·) (ih holds')
  | case2 chunk script read stops =>
    obtain ⟨sound, _, ended⟩ := on script holds chunk
    have empty : read.bytes = [] := by
      by_contra filled
      exact stops ⟨sound, filled⟩
    rcases ended with ⟨front, ended⟩ | nothing
    · rw [empty] at ended
      simp at ended
    · rw [← bytes_append_left, nothing, empty]
      rfl

theorem decode_delivered (steady : ∀ fill ∈ script, fill.Steady) (chunk : List UInt8) :
    Utf8.decode (chunk ++ Fill.delivered script) = (readings chunk script).chars :=
  Fill.ReadsOn.decode (fun _ => readLine_of_steady) steady chunk

namespace LineReader

theorem ahead_eq_of_answers {reader : LineReader} {chars : List Char}
    (answers : ∀ calls, (reader.after calls).next.1 = chars[calls]?) :
    CharSource.ahead reader = chars := by
  induction chars generalizing reader with
  | nil => exact CharSource.ahead_of_none (answers 0)
  | cons char chars ih =>
    have first : (CharSource.next reader).1 = some char := answers 0
    rw [CharSource.ahead_of_some first]
    exact congrArg (char :: ·) (ih fun calls => answers (calls + 1))

/-- A reader hands out what all the bytes together read as, however they are cut into answers: each
encoding as its character, and one replacement character for each malformed part. -/
theorem ahead_of_steady (script : List Fill) (steady : ∀ fill ∈ script, fill.Steady) :
    CharSource.ahead (ofScript script) = Utf8.decode (Fill.delivered script) ∧
      ∀ chars, Utf8.Lossy (Fill.delivered script) chars ↔
        chars = CharSource.ahead (ofScript script) := by
  have same : CharSource.ahead (ofScript script) = Utf8.decode (Fill.delivered script) :=
    (ahead_eq_of_answers fun calls => answer_after calls 0 [] script).trans
      (decode_delivered steady []).symm
  refine ⟨same, fun chars => ?_⟩
  rw [same]
  exact Utf8.lossy_iff

/-- The second character is cut by an interruption, the next one by the end of its line, and the
last one by the end of the input. -/
theorem ahead_of_steady_of_cut_characters :
    let script : List Fill := [.bytes [0x61, 0xC3], .interrupted, .bytes [0xA9, 0xE2, 0x82],
      .bytes [0x0A, 0xFF, 0xF0], .bytes [0x9F, 0x98]]
    let chars : List Char := ['a', 'é', '\uFFFD', '\n', '\uFFFD', '\uFFFD']
    (∀ fill ∈ script, fill.Steady) ∧ CharSource.ahead (ofScript script) = chars ∧
      ∀ other, Utf8.Lossy (Fill.delivered script) other ↔ other = chars := by
  intro script chars
  have steady : ∀ fill ∈ script, fill.Steady := by
    simp [script, Fill.Steady]
  obtain ⟨same, only⟩ := ahead_of_steady script steady
  have decoded : Utf8.decode (Fill.delivered script) = chars := by decide +kernel
  rw [same, decoded] at only
  exact ⟨steady, same.trans decoded, only⟩

end LineReader

end OpLang
