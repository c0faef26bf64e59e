import OpLang.Proofs.Source.Decoding

/-! # Input that is read to its end

An input that can be read without a failure comes in pieces until all of it has been delivered, and
from then on the answer is that it has ended, however often it is asked. The characters of its
reader are what its bytes read as, and the reader never fails.
-/

namespace OpLang

/-- The text that bytes are read as. -/
def Utf8.text (bytes : List UInt8) : String := String.ofList (decode bytes)

/-- The answers deliver exactly these bytes, without a failure, and then say that this was all. -/
inductive Fill.Supplies : List Fill → List UInt8 → Prop where
  | nothing : Supplies [] []
  | ended {script : List Fill} (behind : Supplies script []) : Supplies (.bytes [] :: script) []
  | piece {script : List Fill} {chunk bytes : List UInt8} (filled : chunk ≠ [])
    (behind : Supplies script bytes) : Supplies (.bytes chunk :: script) (chunk ++ bytes)
  | interrupted {script : List Fill} {bytes : List UInt8} (behind : Supplies script bytes) :
    Supplies (.interrupted :: script) bytes

namespace Fill

variable {chunk bytes : List UInt8} {script : List Fill}

/-- A whole sequence of bytes may come in one piece. -/
theorem supplies_whole (bytes : List UInt8) : Supplies [.bytes bytes] bytes := by
  cases bytes with
  | nil => exact .ended .nothing
  | cons byte bytes =>
    have supplies := Supplies.piece (List.cons_ne_nil byte bytes) .nothing
    rwa [List.append_nil] at supplies

theorem Supplies.delivered_eq (supplies : Supplies script bytes) : delivered script = bytes := by
  induction supplies with
  | nothing => rfl
  | ended _ ih => exact ih
  | piece _ _ ih => exact congrArg (_ ++ ·) ih
  | interrupted _ ih => exact ih

theorem readsOn_supplies : ReadsOn fun script => ∃ bytes, Supplies script bytes := by
  rintro script ⟨bytes, supplies⟩ chunk
  fun_induction readLine chunk script generalizing bytes with
  | case1 => exact ⟨rfl, ⟨bytes, supplies⟩, .inl ⟨_, rfl⟩⟩
  | case2 => exact ⟨rfl, ⟨bytes, supplies⟩, .inr rfl⟩
  | case3 =>
    cases supplies with
    | ended behind => exact ⟨rfl, ⟨_, behind⟩, .inr behind.delivered_eq⟩
    | piece filled => exact absurd rfl filled
  | case4 chunk _ byte bytes script ih =>
    cases supplies with
    | piece _ behind => exact (ih _ behind).after chunk
  | case5 chunk _ script ih =>
    cases supplies with
    | interrupted behind => exact (ih _ behind).after chunk
  | case6 => cases supplies

end Fill

namespace LineReader

variable {reader : LineReader} {bytes : List UInt8} {script : List Fill}

/-- A reader of a supplied input hands out what all its bytes read as. -/
theorem ahead_of_supplies (supplies : Fill.Supplies script bytes) :
    CharSource.ahead (ofScript script) = (Utf8.text bytes).toList := by
  have whole := Fill.readsOn_supplies.decode ⟨bytes, supplies⟩ []
  rw [List.nil_append, supplies.delivered_eq] at whole
  rw [Utf8.text, String.toList_ofList, whole]
  exact ahead_eq_of_answers fun calls => answer_after calls 0 [] script

/-- A reader that has not failed and will not. -/
structure Sound (reader : LineReader) : Prop where
  unfailed : reader.failure? = none
  supplied : ∃ bytes, Fill.Supplies reader.script bytes

theorem sound_ofScript (supplies : Fill.Supplies script bytes) : (ofScript script).Sound :=
  ⟨rfl, bytes, supplies⟩

theorem Sound.nextLine (sound : reader.Sound) : reader.nextLine.2.Sound := by
  obtain ⟨unfailed, supplied, _⟩ := Fill.readsOn_supplies _ sound.supplied reader.chunk
  unfold LineReader.nextLine
  simp only [unfailed]
  split
  · exact ⟨rfl, supplied⟩
  · exact ⟨rfl, supplied⟩

theorem Sound.next (sound : reader.Sound) : (CharSource.next reader).2.Sound := by
  change reader.next.2.Sound
  unfold LineReader.next
  split
  · exact ⟨sound.unfailed, sound.supplied⟩
  · exact sound.nextLine
  · exact sound

end LineReader

end OpLang
