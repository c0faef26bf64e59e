import Mathlib.Logic.Function.Iterate
import OpLang.Proofs.Source.Lines
import OpLang.Proofs.Text.Utf8

/-! # What a reader hands out, and when it asks for more

A reader hands out the characters of its readings, one reading after the other, and then nothing any
more. It takes a reading only when it is asked for a character and has none at hand, so that all the
time just the bytes of the readings it has begun to hand out are gone. A reading that fails costs
the bytes it has taken and no others.
-/

namespace OpLang

/-- What becomes of a reader that takes this reading as its last. -/
def LineRead.status (read : LineRead) : ReaderStatus :=
  match read.failure? with
  | some message => .failed message
  | none => .ended

theorem LineRead.status_ne_reading (read : LineRead) : read.status ≠ .reading := by
  unfold LineRead.status
  split <;> simp

namespace LineReader

/-- A reader after some calls. -/
def after (calls : Nat) (reader : LineReader) : LineReader :=
  (fun reader => reader.next.2)^[calls] reader

/-- The reader behind its last reading. -/
def finished (all : Readings) : LineReader :=
  ⟨[], all.last.chunk, all.last.script, all.bytes.length + all.last.bytes.length, all.last.status⟩

/-- What the calls of a reader have to do with the readings of its script. -/
structure Delivers (script : List Fill) (all : Readings) : Prop where
  /-- Each call answers the next character of the readings, and behind the last one nothing. -/
  chars : ∀ calls, ((ofScript script).after calls).next.1 = all.chars[calls]?
  /-- With a character of a line the bytes up to the end of the line are gone, and no others. -/
  lazy : ∀ front line others passed char rest, all.lines = front ++ line :: others →
    Utf8.decode line.bytes = passed ++ char :: rest →
      ((ofScript script).after
        ((front.flatMap (Utf8.decode ·.bytes)).length + passed.length)).next =
          (some char, ⟨rest, line.chunk, line.script,
            (front.flatMap (·.bytes) ++ line.bytes).length, .reading⟩) ∧
      Fill.delivered script = (front.flatMap (·.bytes) ++ line.bytes) ++ line.left
  /-- Behind the last character nothing changes any more. -/
  ends : ∀ calls, all.chars.length < calls → (ofScript script).after calls = finished all
  /-- A reader that has answered nothing leaves alone whatever there is to read. -/
  sticks : ∀ (chunk : List UInt8) (others : List Fill),
    let fed := { finished all with chunk := chunk, script := others }
    fed.next = (none, fed)
  /-- The last reading costs the bytes of an unfinished line, and none unless it fails. -/
  drops : Fill.delivered script = all.bytes ++ all.last.bytes ++ all.last.left ∧
    newline ∉ all.last.bytes ∧ (all.last.failure? = none → all.last.bytes = [])

variable {reader other : LineReader} {chars rest : List Char} {chunk : List UInt8}
  {script : List Fill} {consumed : Nat} {status : ReaderStatus}

/-! ### Calls -/

theorem after_add (first second : Nat) (reader : LineReader) :
    reader.after (first + second) = (reader.after first).after second := by
  rw [Nat.add_comm, after, Function.iterate_add_apply, after, after]

theorem next_after_congr (same : reader.next = other.next) (calls : Nat) :
    (reader.after calls).next = (other.after calls).next := by
  cases calls with
  | zero => exact same
  | succ calls => rw [after, after, Function.iterate_succ_apply, Function.iterate_succ_apply, same]

theorem after_congr (same : reader.next = other.next) {calls : Nat} (called : 0 < calls) :
    reader.after calls = other.after calls := by
  obtain ⟨calls, rfl⟩ := Nat.exists_eq_succ_of_ne_zero (Nat.ne_of_gt called)
  rw [after, after, Function.iterate_succ_apply, Function.iterate_succ_apply, same]

/-- Characters at hand are handed out without a reading. -/
theorem after_length (chars rest : List Char) :
    after chars.length ⟨chars ++ rest, chunk, script, consumed, status⟩ =
      ⟨rest, chunk, script, consumed, status⟩ := by
  induction chars with
  | nil => rfl
  | cons char chars ih => exact ih

theorem after_line (chars : List Char) :
    after chars.length ⟨chars, chunk, script, consumed, status⟩ =
      ⟨[], chunk, script, consumed, status⟩ := by
  have handed := @after_length chunk script consumed status chars []
  rw [List.append_nil] at handed
  exact handed

theorem next_of_continues (continues : (readLine chunk script).Continues) :
    next ⟨[], chunk, script, consumed, .reading⟩ =
      next ⟨Utf8.decode (readLine chunk script).bytes, (readLine chunk script).chunk,
        (readLine chunk script).script, consumed + (readLine chunk script).bytes.length,
          .reading⟩ := by
  obtain ⟨sound, filled⟩ := continues
  obtain ⟨char, line, decoded⟩ := List.exists_cons_of_ne_nil (Utf8.decode_eq_nil_iff.not.mpr filled)
  simp only [next, nextLine, sound, decoded]

theorem next_of_stops (stops : ¬ (readLine chunk script).Continues) :
    next ⟨[], chunk, script, consumed, .reading⟩ =
      (none, ⟨[], (readLine chunk script).chunk, (readLine chunk script).script,
        consumed + (readLine chunk script).bytes.length, (readLine chunk script).status⟩) := by
  simp only [next, nextLine, LineRead.status]
  cases failure : (readLine chunk script).failure? with
  | some message => rfl
  | none =>
    have empty : (readLine chunk script).bytes = [] := by
      by_contra filled
      exact stops ⟨failure, filled⟩
    simp only [empty, Utf8.decode_nil]

/-- A reader that has ended or failed answers nothing and stays as it is. -/
theorem next_of_stopped (stopped : status ≠ .reading) :
    next ⟨[], chunk, script, consumed, status⟩ = (none, ⟨[], chunk, script, consumed, status⟩) := by
  cases status with
  | reading => contradiction
  | ended | failed => rfl

theorem after_of_stopped (stopped : status ≠ .reading) (calls : Nat) :
    after calls ⟨[], chunk, script, consumed, status⟩ = ⟨[], chunk, script, consumed, status⟩ :=
  Function.iterate_fixed (by rw [next_of_stopped stopped]) calls

theorem after_of_stops (stops : ¬ (readLine chunk script).Continues) (calls : Nat) :
    after (calls + 1) ⟨[], chunk, script, consumed, .reading⟩ =
      ⟨[], (readLine chunk script).chunk, (readLine chunk script).script,
        consumed + (readLine chunk script).bytes.length, (readLine chunk script).status⟩ := by
  rw [after, Function.iterate_succ_apply, next_of_stops stops]
  exact after_of_stopped (LineRead.status_ne_reading _) calls

/-! ### Lines -/

/-- A reading that is handed out leaves a reader that is about to take the next one. -/
theorem after_reading (continues : (readLine chunk script).Continues) (calls : Nat) :
    after ((Utf8.decode (readLine chunk script).bytes).length + calls)
        ⟨[], chunk, script, consumed, .reading⟩ =
      after calls ⟨[], (readLine chunk script).chunk, (readLine chunk script).script,
        consumed + (readLine chunk script).bytes.length, .reading⟩ := by
  have some : 0 < (Utf8.decode (readLine chunk script).bytes).length :=
    List.length_pos_iff.mpr (Utf8.decode_eq_nil_iff.not.mpr continues.2)
  rw [after_congr (next_of_continues continues) (Nat.lt_add_right calls some), after_add,
    after_line]

/-- A reader that has handed out some lines is about to take the reading behind them. -/
theorem after_lines {front others : List LineRead}
    (lines : (readings chunk script).lines = front ++ others) (consumed : Nat) :
    ∃ chunk' script', after (front.flatMap (Utf8.decode ·.bytes)).length
        ⟨[], chunk, script, consumed, .reading⟩ =
          ⟨[], chunk', script', consumed + (front.flatMap (·.bytes)).length, .reading⟩ ∧
      readings chunk' script' = ⟨others, (readings chunk script).last⟩ ∧
      chunk ++ Fill.delivered script =
        front.flatMap (·.bytes) ++ (chunk' ++ Fill.delivered script') := by
  induction front generalizing chunk script consumed with
  | nil => exact ⟨chunk, script, rfl, by rw [← List.nil_append others, ← lines], rfl⟩
  | cons line front ih =>
    obtain ⟨continues, rfl, behind⟩ := readings_eq_cons lines
    have rest := congrArg Readings.lines behind
    obtain ⟨chunk', script', run, same, whole⟩ :=
      ih rest (consumed + (readLine chunk script).bytes.length)
    refine ⟨chunk', script', ?_, ?_, ?_⟩
    · rw [List.flatMap_cons, List.length_append, after_reading continues, run, List.flatMap_cons,
        List.length_append, Nat.add_assoc]
    · rw [same, behind]
    · rw [← bytes_append_left, LineRead.left, whole, List.flatMap_cons, List.append_assoc]

/-- The call that answers a character of a line. -/
theorem next_within (passed : List Char) {char : Char} {rest : List Char}
    (continues : (readLine chunk script).Continues)
    (decoded : Utf8.decode (readLine chunk script).bytes = passed ++ char :: rest) :
    (after passed.length ⟨[], chunk, script, consumed, .reading⟩).next =
      (some char, ⟨rest, (readLine chunk script).chunk, (readLine chunk script).script,
        consumed + (readLine chunk script).bytes.length, .reading⟩) := by
  rw [next_after_congr (next_of_continues continues), decoded, after_length, next]

/-- Each call answers the next character of the readings. -/
theorem answer_after (calls consumed : Nat) (chunk : List UInt8) (script : List Fill) :
    (after calls ⟨[], chunk, script, consumed, .reading⟩).next.1 =
      (readings chunk script).chars[calls]? := by
  fun_induction readings chunk script generalizing calls consumed with
  | case1 chunk script read continues others ih =>
    rw [Readings.chars, List.flatMap_cons]
    -- The call is answered from this reading, or from those behind it.
    rcases Nat.lt_or_ge calls (Utf8.decode read.bytes).length with within | behind
    · have decoded := (List.take_append_drop calls (Utf8.decode read.bytes)).symm
      rw [List.drop_eq_getElem_cons within] at decoded
      have handed := @next_within chunk script consumed _ _ _ continues decoded
      rw [List.length_take_of_le (Nat.le_of_lt within)] at handed
      rw [handed, List.getElem?_append_left within, List.getElem?_eq_getElem within]
    · obtain ⟨more, rfl⟩ := Nat.exists_eq_add_of_le behind
      rw [after_reading continues, ih, List.getElem?_append_right behind, Nat.add_sub_cancel_left]
      rfl
  | case2 chunk script read stops =>
    cases calls with
    | zero => exact congrArg Prod.fst (next_of_stops stops)
    | succ calls =>
      rw [after_of_stops stops, next_of_stopped (LineRead.status_ne_reading _)]
      rfl

/-- The reading behind all lines. -/
theorem exists_last (script : List Fill) :
    ∃ chunk' script', (ofScript script).after (readings [] script).chars.length =
        ⟨[], chunk', script', (readings [] script).bytes.length, .reading⟩ ∧
      ¬ (readLine chunk' script').Continues ∧
      readLine chunk' script' = (readings [] script).last ∧
      Fill.delivered script = (readings [] script).bytes ++ (chunk' ++ Fill.delivered script') := by
  obtain ⟨chunk', script', run, same, whole⟩ :=
    after_lines (List.append_nil (readings [] script).lines).symm 0
  rw [Nat.zero_add] at run
  obtain ⟨stops, last⟩ := readings_eq_nil (congrArg Readings.lines same)
  rw [same] at last
  exact ⟨chunk', script', run, stops, last, whole⟩

/-- Behind the last character the reader takes its last reading. -/
theorem after_finished {calls : Nat} (script : List Fill)
    (called : (readings [] script).chars.length < calls) :
    (ofScript script).after calls = finished (readings [] script) := by
  obtain ⟨more, rfl⟩ := Nat.exists_eq_add_of_lt called
  obtain ⟨chunk', script', run, stops, last, _⟩ := exists_last script
  rw [Nat.add_assoc, after_add, run, after_of_stops stops, last, finished]

theorem last_reading (script : List Fill) :
    Fill.delivered script = (readings [] script).bytes ++ (readings [] script).last.bytes ++
        (readings [] script).last.left ∧
      newline ∉ (readings [] script).last.bytes ∧
      ((readings [] script).last.failure? = none → (readings [] script).last.bytes = []) := by
  obtain ⟨chunk', script', _, stops, last, whole⟩ := exists_last script
  rw [← last]
  refine ⟨?_, ?_, ?_⟩
  · rw [whole, List.append_assoc, bytes_append_left]
  · rcases ends_readLine chunk' script' with ⟨front, _, ended, sound⟩ | ⟨clean, _⟩
    · exact absurd ⟨sound, by simp [ended]⟩ stops
    · exact clean
  · intro sound
    by_contra filled
    exact stops ⟨sound, filled⟩

theorem delivers_readings (script : List Fill) : Delivers script (readings [] script) where
  chars calls := answer_after calls 0 [] script
  lazy front line others passed char rest lines decoded := by
    obtain ⟨chunk', script', run, same, whole⟩ := after_lines lines 0
    obtain ⟨continues, rfl, _⟩ := readings_eq_cons (congrArg Readings.lines same)
    rw [Nat.zero_add] at run
    refine ⟨?_, ?_⟩
    · rw [after_add, ofScript, run, next_within passed continues decoded, List.length_append]
    · rw [List.append_assoc, bytes_append_left]
      exact whole
  ends calls := after_finished script
  sticks chunk others := next_of_stopped (LineRead.status_ne_reading _)
  drops := last_reading script

end LineReader

end OpLang
