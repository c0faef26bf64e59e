import Mathlib.Data.List.Induction
import OpLang.Proofs.Source.Decoding

/-! # The bytes that characters cost

A reader that has been asked for some characters has consumed the bytes of the lines up to the one
that holds the last of them; asked once more than there are characters, it has consumed all bytes.
So a line is not touched before a character of it is wanted.
-/

namespace OpLang

/-- The first line of some bytes: it goes on to its only newline or, without one, to the end. -/
def IsLine (line left : List UInt8) : Prop :=
  (∃ clean, newline ∉ clean ∧ line = clean ++ [newline]) ∨ newline ∉ line ∧ left = []

/-- Bytes with a line singled out, which starts where another one ends. -/
structure LineAt (bytes before line left : List UInt8) : Prop where
  whole : bytes = before ++ (line ++ left)
  starts : before = [] ∨ ∃ clean, before = clean ++ [newline]
  isLine : IsLine line left

/-- How many bytes a number of characters cost, if at least one is asked for: those of the lines up
to the one with the last character, and all of them if there are not so many characters. -/
inductive Costs (bytes : List UInt8) (asked : Nat) : Nat → Prop where
  | line {before line left : List UInt8} (single : LineAt bytes before line left)
    (behind : (Utf8.decode before).length < asked)
    (within : asked ≤ (Utf8.decode (before ++ line)).length) :
    Costs bytes asked (before ++ line).length
  | all (past : (Utf8.decode bytes).length < asked) : Costs bytes asked bytes.length

/-! ### Only one cost -/

/-- Bytes may be cut behind a newline, and the pieces be read by themselves. -/
theorem Utf8.decode_append_of_newline {front : List UInt8}
    (ended : front = [] ∨ ∃ clean, front = clean ++ [newline]) (behind : List UInt8) :
    decode (front ++ behind) = decode front ++ decode behind := by
  rcases ended with rfl | ⟨clean, rfl⟩
  · rfl
  · exact decode_append_of_ascii clean (by decide) behind

section Lines

variable {bytes before line left before' line' left' : List UInt8}

/-- No newline stands in front of the end of the first line. -/
theorem IsLine.prefix_of_mem {front others : List UInt8} (isLine : IsLine line left)
    (same : line ++ left = front ++ others) (inside : newline ∈ front) :
    line <+: front ∧ newline ∈ line := by
  rcases isLine with ⟨clean, only, rfl⟩ | ⟨only, rfl⟩
  · refine ⟨?_, by simp⟩
    rcases List.prefix_or_prefix_of_prefix ⟨_, same⟩ ⟨_, rfl⟩ with shorter | longer
    · exact shorter
    · rcases List.prefix_concat_iff.mp longer with rfl | short
      · exact List.prefix_rfl
      · exact absurd (short.subset inside) only
  · rw [List.append_nil] at same
    exact absurd (same ▸ List.mem_append_left _ inside) only

theorem IsLine.unique (isLine : IsLine line left) (isLine' : IsLine line' left')
    (same : line ++ left = line' ++ left') : line = line' := by
  by_cases inside : newline ∈ line'
  · obtain ⟨shorter, inside⟩ := isLine.prefix_of_mem same inside
    obtain ⟨longer, _⟩ := isLine'.prefix_of_mem same.symm inside
    exact shorter.eq_of_length_le longer.length_le
  · have outside : newline ∉ line := fun found =>
      inside ((isLine'.prefix_of_mem same.symm found).2)
    rcases isLine with ⟨_, _, rfl⟩ | ⟨_, rfl⟩
    · simp at outside
    · rcases isLine' with ⟨_, _, rfl⟩ | ⟨_, rfl⟩
      · simp at inside
      · simpa using same

/-- What is read of bytes is what is read of them up to the end of a line and behind it. -/
theorem LineAt.decode_eq (single : LineAt bytes before line left) :
    Utf8.decode bytes = Utf8.decode (before ++ line) ++ Utf8.decode left := by
  rw [single.whole, ← List.append_assoc]
  rcases single.isLine with ⟨clean, _, rfl⟩ | ⟨_, rfl⟩
  · rw [← List.append_assoc before]
    exact Utf8.decode_append_of_newline (.inr ⟨_, rfl⟩) left
  · rw [List.append_nil, Utf8.decode_nil, List.append_nil]

/-- The characters of a line are read before those of a line that starts behind it. -/
theorem LineAt.length_decode_le (single : LineAt bytes before line left)
    (single' : LineAt bytes before' line' left') (shorter : before.length < before'.length) :
    (Utf8.decode (before ++ line)).length ≤ (Utf8.decode before').length := by
  have whole := single.whole
  have whole' := single'.whole
  obtain ⟨further, rfl⟩ : before <+: before' :=
    List.prefix_of_prefix_length_le ⟨_, whole.symm⟩ ⟨_, whole'.symm⟩ shorter.le
  have inside : newline ∈ further := by
    rcases single'.starts with empty | ⟨clean, ended⟩
    · simp [empty] at shorter
    · cases further using List.reverseRecOn with
      | nil => simp at shorter
      | append_singleton front last =>
        rw [← List.append_assoc] at ended
        obtain ⟨_, same⟩ := List.append_inj' ended rfl
        obtain rfl : last = newline := by simpa using same
        simp
  have same : line ++ left = further ++ (line' ++ left') := by
    rw [whole, List.append_assoc] at whole'
    exact List.append_cancel_left whole'
  obtain ⟨⟨gap, rfl⟩, found⟩ := single.isLine.prefix_of_mem same inside
  rcases single.isLine with ⟨clean, _, rfl⟩ | ⟨only, _⟩
  · have ended : before ++ (clean ++ [newline]) = before ++ clean ++ [newline] :=
      (List.append_assoc _ _ _).symm
    have apart := Utf8.decode_append_of_newline (.inr ⟨_, ended⟩) gap
    rw [List.append_assoc] at apart
    rw [apart, List.length_append]
    omega
  · exact absurd found only

/-- A character costs the same however its line is singled out. -/
theorem Costs.unique {asked cost cost' : Nat} (costs : Costs bytes asked cost)
    (costs' : Costs bytes asked cost') : cost = cost' := by
  cases costs with
  | @line before line left single behind within =>
    cases costs' with
    | @line before' line' left' single' behind' within' =>
      rcases Nat.lt_trichotomy before.length before'.length with shorter | same | longer
      · have ordered := single.length_decode_le single' shorter
        omega
      · obtain ⟨rfl, rest⟩ := List.append_inj (single.whole.symm.trans single'.whole) same
        rw [single.isLine.unique single'.isLine rest]
      · have ordered := single'.length_decode_le single longer
        omega
    | all past =>
      rw [single.decode_eq, List.length_append] at past
      omega
  | all past =>
    cases costs' with
    | line single' _ within' =>
      rw [single'.decode_eq, List.length_append] at past
      omega
    | all => rfl

/-- Nothing is consumed behind the line in which the last of so many characters stands, if that line
ends with a newline. -/
def KeepsToLine (bytes : List UInt8) (reach consumed : Nat) : Prop :=
  ∀ before clean left, LineAt bytes before (clean ++ [newline]) left →
    (Utf8.decode before).length < reach →
      reach ≤ (Utf8.decode (before ++ (clean ++ [newline]))).length →
        consumed = (before ++ (clean ++ [newline])).length

/-- If the last character is not the newline itself, one character more is in the same line. -/
theorem Costs.keepsToLine {passed others : List Char} {cost : Nat}
    (costs : Costs bytes (passed.length + 1) cost) (decoded : Utf8.decode bytes = passed ++ others)
    (other : passed.getLast? ≠ some '\n') : KeepsToLine bytes passed.length cost := by
  intro before clean left single behind within
  have ended : (Utf8.decode (before ++ (clean ++ [newline]))).getLast? = some '\n' := by
    rw [← List.append_assoc]
    exact Utf8.getLast?_decode_of_ascii (before ++ clean) (by decide)
  have inside : passed.length < (Utf8.decode (before ++ (clean ++ [newline]))).length := by
    apply Nat.lt_of_le_of_ne within
    intro same
    obtain ⟨rfl, _⟩ := List.append_inj (decoded.symm.trans single.decode_eq) same
    exact other ended
  exact costs.unique (.line single (Nat.lt_succ_of_lt behind) inside)

end Lines

/-! ### What a reader consumes -/

variable {chunk : List UInt8} {script : List Fill} {front others : List LineRead} {line : LineRead}

/-- Over steady answers the lines of a reader are lines of the bytes: all but the last one end with
a newline. -/
theorem lines_of_steady (steady : ∀ fill ∈ script, fill.Steady)
    (lines : (readings chunk script).lines = front ++ line :: others) :
    (∀ earlier ∈ front, ∃ clean, earlier.bytes = clean ++ [newline]) ∧
      IsLine line.bytes line.left := by
  induction front generalizing chunk script with
  | nil =>
    obtain ⟨_, rfl, _⟩ := readings_eq_cons lines
    refine ⟨by simp, ?_⟩
    rcases ends_readLine chunk script with ⟨clean, only, ended, _⟩ | ⟨only, _⟩
    · exact .inl ⟨clean, only, ended⟩
    · rcases (readLine_of_steady steady chunk).2.2 with ⟨clean, ended⟩ | nothing
      · simp [ended] at only
      · exact .inr ⟨only, nothing⟩
  | cons first front ih =>
    obtain ⟨_, rfl, behind⟩ := readings_eq_cons lines
    obtain ⟨_, steady', ended⟩ := readLine_of_steady steady chunk
    have rest := congrArg Readings.lines behind
    obtain ⟨earlier, isLine⟩ := ih steady' rest
    refine ⟨List.forall_mem_cons.mpr ⟨?_, earlier⟩, isLine⟩
    rcases ended with ended | nothing
    · exact ended
    · -- Another line is read, so something was left for it.
      obtain ⟨next, others', more⟩ := List.exists_cons_of_ne_nil
        (List.append_ne_nil_of_right_ne_nil front (List.cons_ne_nil line others))
      obtain ⟨continues, _, _⟩ := readings_eq_cons (rest.trans more)
      have whole := bytes_append_left (readLine chunk script).chunk (readLine chunk script).script
      have none := whole.trans nothing
      exact absurd (List.append_eq_nil_iff.mp none).1 continues.2

/-- Lines that end with newlines are read one by one. -/
theorem decode_flatMap_of_newline
    (ended : ∀ earlier ∈ front, ∃ clean, earlier.bytes = clean ++ [newline]) :
    Utf8.decode (front.flatMap (·.bytes)) = front.flatMap (Utf8.decode ·.bytes) := by
  induction front with
  | nil => rfl
  | cons first front ih =>
    obtain ⟨first, ended⟩ := List.forall_mem_cons.mp ended
    rw [List.flatMap_cons, List.flatMap_cons, Utf8.decode_append_of_newline (.inr first), ih ended]

/-- Lines that end with newlines are followed by the start of a line. -/
theorem starts_of_newline
    (ended : ∀ earlier ∈ front, ∃ clean, earlier.bytes = clean ++ [newline]) :
    front.flatMap (·.bytes) = [] ∨ ∃ clean, front.flatMap (·.bytes) = clean ++ [newline] := by
  cases front using List.reverseRecOn with
  | nil => exact .inl rfl
  | append_singleton front last =>
    obtain ⟨clean, whole⟩ := ended last (by simp)
    refine .inr ⟨front.flatMap (·.bytes) ++ clean, ?_⟩
    rw [List.flatMap_append, List.flatMap_singleton, whole, List.append_assoc]

/-- The lines of steady answers are all the bytes. -/
theorem bytes_of_steady (steady : ∀ fill ∈ script, fill.Steady) (chunk : List UInt8) :
    (readings chunk script).bytes = chunk ++ Fill.delivered script := by
  fun_induction readings chunk script with
  | case1 chunk script read _ others ih =>
    rw [← bytes_append_left, Readings.bytes, List.flatMap_cons]
    exact congrArg (read.bytes ++ ·) (ih (readLine_of_steady steady chunk).2.1)
  | case2 chunk script read stops =>
    obtain ⟨sound, _, ended⟩ := readLine_of_steady steady chunk
    have empty : read.bytes = [] := by
      by_contra filled
      exact stops ⟨sound, filled⟩
    rcases ended with ⟨front, ended⟩ | nothing
    · rw [empty] at ended
      simp at ended
    · rw [← bytes_append_left, nothing, empty]
      rfl

/-- An index into the characters of all lines is an index into those of one of them. -/
theorem exists_line_of_lt {lines : List LineRead} {index : Nat}
    (inside : index < (lines.flatMap (Utf8.decode ·.bytes)).length) :
    ∃ front line others passed char rest, lines = front ++ line :: others ∧
      Utf8.decode line.bytes = passed ++ char :: rest ∧
      index = (front.flatMap (Utf8.decode ·.bytes)).length + passed.length := by
  induction lines generalizing index with
  | nil => simp at inside
  | cons first lines ih =>
    rw [List.flatMap_cons, List.length_append] at inside
    rcases Nat.lt_or_ge index (Utf8.decode first.bytes).length with within | behind
    · have decoded := (List.take_append_drop index (Utf8.decode first.bytes)).symm
      rw [List.drop_eq_getElem_cons within] at decoded
      refine ⟨[], first, lines, _, _, _, rfl, decoded, ?_⟩
      rw [List.length_take_of_le (Nat.le_of_lt within)]
      exact (Nat.zero_add index).symm
    · obtain ⟨more, rfl⟩ := Nat.exists_eq_add_of_le behind
      obtain ⟨front, line, others, passed, char, rest, rfl, decoded, rfl⟩ :=
        ih (Nat.lt_of_add_lt_add_left inside)
      refine ⟨first :: front, line, others, passed, char, rest, rfl, decoded, ?_⟩
      rw [List.flatMap_cons, List.length_append, Nat.add_assoc]

namespace LineReader

/-- With the character that a call answers, the bytes of its line are gone. -/
theorem consumed_after {passed rest : List Char} {char : Char}
    (lines : (readings [] script).lines = front ++ line :: others)
    (decoded : Utf8.decode line.bytes = passed ++ char :: rest) :
    ((ofScript script).after
        ((front.flatMap (Utf8.decode ·.bytes)).length + passed.length + 1)).consumed =
      (front.flatMap (·.bytes) ++ line.bytes).length := by
  obtain ⟨chunk', script', run, same, _⟩ := after_lines lines 0
  obtain ⟨continues, rfl, _⟩ := readings_eq_cons (congrArg Readings.lines same)
  have within :=
    @next_within _ _ (0 + (front.flatMap (·.bytes)).length) passed _ _ continues decoded
  rw [after_add _ 1, after_add, ofScript, run, after, Function.iterate_one, within,
    List.length_append, Nat.zero_add]

/-- Each character costs a reader what it has to: nothing behind its line is touched. -/
theorem costs_after (steady : ∀ fill ∈ script, fill.Steady) (calls : Nat) :
    Costs (Fill.delivered script) (calls + 1) ((ofScript script).after (calls + 1)).consumed := by
  rcases Nat.lt_or_ge calls (readings [] script).chars.length with inside | past
  · obtain ⟨front, line, others, passed, char, rest, lines, decoded, rfl⟩ :=
      exists_line_of_lt inside
    obtain ⟨ended, isLine⟩ := lines_of_steady steady lines
    have read := decode_flatMap_of_newline ended
    have starts := starts_of_newline ended
    obtain ⟨chunk', script', _, same, whole⟩ := after_lines lines 0
    obtain ⟨_, behind, _⟩ := readings_eq_cons (congrArg Readings.lines same)
    rw [← bytes_append_left chunk' script', behind] at whole
    rw [consumed_after lines decoded]
    refine .line ⟨whole, starts, isLine⟩ ?_ ?_
    · rw [read]
      omega
    · rw [Utf8.decode_append_of_newline starts, read, decoded, List.length_append,
        List.length_append, List.length_cons]
      omega
  · have chars := decode_delivered steady []
    have bytes := bytes_of_steady steady []
    have all := congrArg List.length (last_reading script).1
    rw [List.nil_append] at chars bytes
    rw [List.length_append, List.length_append, bytes] at all
    have cost : (finished (readings [] script)).consumed = (Fill.delivered script).length := by
      simp only [finished, bytes]
      omega
    rw [after_finished script (Nat.lt_succ_of_le past), cost]
    apply Costs.all
    rw [chars]
    omega

end LineReader

end OpLang
