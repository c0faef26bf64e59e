import Mathlib.Data.List.TakeWhile
import OpLang.Source.LineReader

/-! # Reading one line after the other

A reading takes bytes up to the first newline, or up to where the input fails or ends for the
moment. It neither loses nor reorders a byte. Readings follow each other until one fails or has no
byte.
-/

namespace OpLang

/-- The bytes that a series of answers delivers. -/
def Fill.delivered (script : List Fill) : List UInt8 := script.flatMap Fill.contents

/-- The bytes that a reading has left to be read. -/
def LineRead.left (read : LineRead) : List UInt8 := read.chunk ++ Fill.delivered read.script

theorem LineRead.bytes_after (earlier : List UInt8) (read : LineRead) :
    (read.after earlier).bytes = earlier ++ read.bytes := rfl

theorem LineRead.left_after (earlier : List UInt8) (read : LineRead) :
    (read.after earlier).left = read.left := rfl

/-- A reading after which another one is taken. -/
def LineRead.Continues (read : LineRead) : Prop := read.failure? = none ∧ read.bytes ≠ []

instance (read : LineRead) : Decidable read.Continues :=
  inferInstanceAs (Decidable (_ ∧ _))

variable {chunk rest : List UInt8} {script : List Fill} {byte : UInt8}

/-! ### One reading -/

theorem newline_notMem_takeWhile (chunk : List UInt8) :
    newline ∉ chunk.takeWhile (· != newline) := fun inside => by
  simpa using List.mem_takeWhile_imp inside

theorem newline_notMem_of_dropWhile (passed : chunk.dropWhile (· != newline) = []) :
    newline ∉ chunk := fun inside => by
  simpa using List.dropWhile_eq_nil_iff.mp passed newline inside

theorem eq_of_dropWhile (stopped : chunk.dropWhile (· != newline) = byte :: rest) :
    chunk = chunk.takeWhile (· != newline) ++ [newline] ++ rest := by
  have fails := List.head?_dropWhile_not (· != newline) chunk
  rw [stopped] at fails
  obtain rfl : byte = newline := by simpa using fails
  rw [List.append_assoc, List.singleton_append, ← stopped, List.takeWhile_append_dropWhile]

/-- Every byte is either in the line or still to be read, in the order of delivery. -/
theorem bytes_append_left (chunk : List UInt8) (script : List Fill) :
    (readLine chunk script).bytes ++ (readLine chunk script).left =
      chunk ++ Fill.delivered script := by
  fun_induction readLine chunk script with
  | case1 script chunk _ rest stopped =>
    rw [LineRead.left, ← List.append_assoc, ← eq_of_dropWhile stopped]
  | case2 => rfl
  | case3 => rfl
  | case4 chunk _ byte bytes script ih =>
    rw [LineRead.bytes_after, LineRead.left_after, List.append_assoc, ih]
    rfl
  | case5 chunk _ script ih =>
    rw [LineRead.bytes_after, LineRead.left_after, List.append_assoc, ih]
    rfl
  | case6 => rfl

/-- How a reading ends: with the first newline, or without one where nothing delivered is left. -/
def LineRead.Ends (read : LineRead) : Prop :=
  (∃ front, newline ∉ front ∧ read.bytes = front ++ [newline] ∧ read.failure? = none) ∨
    (newline ∉ read.bytes ∧ read.chunk = [])

theorem LineRead.Ends.after {read : LineRead} (ends : read.Ends) (without : newline ∉ chunk) :
    (read.after chunk).Ends := by
  rcases ends with ⟨front, clean, whole, sound⟩ | ⟨clean, empty⟩
  · refine .inl ⟨chunk ++ front, by simp [without, clean], ?_, sound⟩
    simp only [LineRead.after, whole, List.append_assoc]
  · exact .inr ⟨by simp [LineRead.after, without, clean], empty⟩

theorem ends_readLine (chunk : List UInt8) (script : List Fill) :
    (readLine chunk script).Ends := by
  fun_induction readLine chunk script with
  | case1 script chunk => exact .inl ⟨_, newline_notMem_takeWhile chunk, rfl, rfl⟩
  | case2 _ passed => exact .inr ⟨newline_notMem_of_dropWhile passed, rfl⟩
  | case3 _ passed => exact .inr ⟨newline_notMem_of_dropWhile passed, rfl⟩
  | case4 _ passed _ _ _ ih => exact ih.after (newline_notMem_of_dropWhile passed)
  | case5 _ passed _ ih => exact ih.after (newline_notMem_of_dropWhile passed)
  | case6 _ passed => exact .inr ⟨newline_notMem_of_dropWhile passed, rfl⟩

/-! ### All readings -/

/-- Readings that follow each other, and the one behind which no other is taken. -/
structure Readings where
  lines : List LineRead
  last : LineRead
deriving DecidableEq, Repr

/-- The readings of a script, up to the first that fails or has no byte. -/
def readings (chunk : List UInt8) (script : List Fill) : Readings :=
  let read := readLine chunk script
  if read.Continues then
    let others := readings read.chunk read.script
    ⟨read :: others.lines, others.last⟩
  else ⟨[], read⟩
termination_by chunk.length + Fill.total script
decreasing_by
  have whole := length_readLine chunk script
  have continues : (readLine chunk script).Continues := ‹_›
  have filled := List.length_pos_iff.mpr continues.2
  dsimp only at whole
  omega

/-- The bytes of the lines. -/
def Readings.bytes (all : Readings) : List UInt8 := all.lines.flatMap (·.bytes)

/-- The characters of the lines, each line read by itself. -/
def Readings.chars (all : Readings) : List Char := all.lines.flatMap (Utf8.decode ·.bytes)

theorem readings_of_continues (continues : (readLine chunk script).Continues) :
    readings chunk script =
      ⟨readLine chunk script ::
        (readings (readLine chunk script).chunk (readLine chunk script).script).lines,
          (readings (readLine chunk script).chunk (readLine chunk script).script).last⟩ := by
  rw [readings.eq_def]
  exact if_pos continues

theorem readings_of_stops (stops : ¬ (readLine chunk script).Continues) :
    readings chunk script = ⟨[], readLine chunk script⟩ := by
  rw [readings.eq_def]
  exact if_neg stops

theorem readings_eq_cons {line : LineRead} {others : List LineRead}
    (lines : (readings chunk script).lines = line :: others) :
    (readLine chunk script).Continues ∧ readLine chunk script = line ∧
      readings line.chunk line.script = ⟨others, (readings chunk script).last⟩ := by
  by_cases continues : (readLine chunk script).Continues
  · rw [readings_of_continues continues] at lines ⊢
    obtain ⟨rfl, rfl⟩ := List.cons.inj lines
    exact ⟨continues, rfl, rfl⟩
  · rw [readings_of_stops continues] at lines
    contradiction

theorem readings_eq_nil (lines : (readings chunk script).lines = []) :
    ¬ (readLine chunk script).Continues ∧ readLine chunk script = (readings chunk script).last := by
  by_cases continues : (readLine chunk script).Continues
  · rw [readings_of_continues continues] at lines
    contradiction
  · rw [readings_of_stops continues]
    exact ⟨continues, rfl⟩

end OpLang
