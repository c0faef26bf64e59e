import OpLang.Proofs.Session.Script
import OpLang.Proofs.Text.Ascii

/-! # What limits leave of what a sink is asked for

A sink that performs some acts refuses none of them, or a text for which it has no room left, or a
flush of which it had too few left. Which refusal comes first is a matter of how many bytes stand
before the flush.
-/

namespace OpLang

namespace Act

/-- What some acts write. -/
def written : List Act → String
  | [] => ""
  | .write text :: acts => text ++ written acts
  | .flush :: acts => written acts

/-- How often some acts flush. -/
def flushes : List Act → Nat
  | [] => 0
  | .write _ :: acts => flushes acts
  | .flush :: acts => flushes acts + 1

/-- What some acts write before a flush, which is counted from zero. -/
def writtenBefore : Nat → List Act → String
  | _, [] => ""
  | index, .write text :: acts => text ++ writtenBefore index acts
  | 0, .flush :: _ => ""
  | index + 1, .flush :: acts => writtenBefore index acts

end Act

theorem fitting_of_ascii {chars : List Char} (small : ∀ char ∈ chars, char.utf8Size = 1)
    (room : Nat) : fitting room chars = chars.take room := by
  induction chars generalizing room with
  | nil => rw [fitting, List.take_nil]
  | cons char chars ih =>
    obtain ⟨first, others⟩ := List.forall_mem_cons.mp small
    rw [fitting, first]
    cases room with
    | zero => rfl
    | succ room =>
      rw [if_pos (Nat.le_add_left 1 room), Nat.add_sub_cancel, ih others, List.take_succ_cons]

namespace Sink

/-- What a sink may take of some acts and how it may refuse them: there is room and there are
flushes for all of them; or the room is used up before a flush fails; or the other way round. -/
inductive Permits (sink : Sink) (acts : List Act) : String → Option SinkFault → Prop where
  | all (room : ∀ room ∈ sink.room, (Act.written acts).utf8ByteSize ≤ room)
    (flushes : ∀ flushes ∈ sink.flushes, Act.flushes acts ≤ flushes) :
    Permits sink acts (Act.written acts) none
  | full {room : Nat} {taken : String} (bounded : sink.room = some room)
    (short : room < (Act.written acts).utf8ByteSize)
    (front : taken.toList <+: (Act.written acts).toList) (size : taken.utf8ByteSize = room)
    (first : ∀ flushes ∈ sink.flushes, flushes < Act.flushes acts →
      room < (Act.writtenBefore flushes acts).utf8ByteSize) :
    Permits sink acts taken (some .full)
  | flushFailed {flushes : Nat} (bounded : sink.flushes = some flushes)
    (short : flushes < Act.flushes acts)
    (first : ∀ room ∈ sink.room, (Act.writtenBefore flushes acts).utf8ByteSize ≤ room) :
    Permits sink acts (Act.writtenBefore flushes acts) (some .flushFailed)

variable {sink : Sink} {acts : List Act} {text taken : String} {fault? : Option SinkFault}

/-- A text that is taken as a whole uses up as much room as it has bytes. -/
theorem Permits.write {room? : Option Nat}
    (same : sink.room = room?.map (text.utf8ByteSize + ·))
    (permits : Permits { sink with room := room? } acts taken fault?) :
    sink.Permits (.write text :: acts) (text ++ taken) fault? := by
  cases permits with
  | all room flushes =>
    refine .all ?_ flushes
    rw [same]
    rintro _ bounded
    obtain ⟨left, limit, rfl⟩ := Option.map_eq_some_iff.mp bounded
    rw [Act.written, String.utf8ByteSize_append]
    exact Nat.add_le_add_left (room left limit) _
  | @full room taken bounded short front size first =>
    refine .full (same.trans (congrArg _ bounded)) ?_ ?_ ?_ ?_
    · rw [Act.written, String.utf8ByteSize_append]
      exact Nat.add_lt_add_left short _
    · rw [Act.written, String.toList_append, String.toList_append]
      exact (List.prefix_append_right_inj _).mpr front
    · rw [String.utf8ByteSize_append, size]
    · intro flushes limit less
      rw [Act.writtenBefore, String.utf8ByteSize_append]
      exact Nat.add_lt_add_left (first flushes limit less) _
  | @flushFailed flushes bounded short first =>
    have same' : text ++ Act.writtenBefore flushes acts =
        Act.writtenBefore flushes (.write text :: acts) := by rw [Act.writtenBefore]
    rw [same']
    refine .flushFailed bounded short ?_
    rw [same, ← same', String.utf8ByteSize_append]
    rintro _ bounded'
    obtain ⟨left, limit, rfl⟩ := Option.map_eq_some_iff.mp bounded'
    exact Nat.add_le_add_left (first left limit) _

theorem Permits.flush {flushes? : Option Nat}
    (same : sink.flushes = flushes?.map (· + 1))
    (permits : Permits { sink with flushes := flushes? } acts taken fault?) :
    sink.Permits (.flush :: acts) taken fault? := by
  cases permits with
  | all room flushes =>
    refine .all room ?_
    rw [same]
    rintro _ bounded
    obtain ⟨left, limit, rfl⟩ := Option.map_eq_some_iff.mp bounded
    exact Nat.succ_le_succ (flushes left limit)
  | full bounded short front size first =>
    refine .full bounded short front size ?_
    rw [same]
    rintro _ bounded' less
    obtain ⟨left, limit, rfl⟩ := Option.map_eq_some_iff.mp bounded'
    exact first left limit (Nat.lt_of_succ_lt_succ less)
  | @flushFailed flushes bounded short first =>
    exact .flushFailed (same.trans (congrArg _ bounded)) (Nat.succ_lt_succ short) first

/-- A text that is longer than there is room for is cut where the room ends. -/
theorem Permits.cut {room : Nat} (ascii : IsAscii (Act.written (.write text :: acts)))
    (bounded : sink.room = some room) (short : room < text.utf8ByteSize) :
    sink.Permits (.write text :: acts) (String.ofList (fitting room text.toList)) (some .full) := by
  have small : IsAscii text := fun char member => ascii char (by simp [Act.written, member])
  have length := small.utf8ByteSize_eq
  have cut := fitting_of_ascii small room
  refine .full bounded ?_ ?_ ?_ ?_
  · rw [Act.written, String.utf8ByteSize_append]
    exact Nat.lt_add_right _ short
  · rw [String.toList_ofList, cut, Act.written, String.toList_append]
    exact (List.take_prefix _ _).trans (List.prefix_append _ _)
  · have front : IsAscii (String.ofList (text.toList.take room)) := by
      intro char member
      rw [String.toList_ofList] at member
      exact small char (List.mem_of_mem_take member)
    rw [cut, front.utf8ByteSize_eq, String.toList_ofList, List.length_take]
    omega
  · intro flushes _ _
    rw [Act.writtenBefore, String.utf8ByteSize_append]
    exact Nat.lt_add_right _ short

theorem write_of_fits {room : Nat} (flushes : Option Nat) (fits : text.utf8ByteSize ≤ room) :
    write ⟨some room, flushes⟩ text =
      (text, none, ⟨some (room - text.utf8ByteSize), flushes⟩) :=
  if_pos fits

theorem write_of_short {room : Nat} (flushes : Option Nat) (short : ¬text.utf8ByteSize ≤ room) :
    write ⟨some room, flushes⟩ text =
      (String.ofList (fitting room text.toList), some .full, ⟨some 0, flushes⟩) :=
  if_neg short

/-- Whatever acts a sink performs, it takes and refuses what it may. -/
theorem permits_perform (sink : Sink) (ascii : IsAscii (Act.written acts)) :
    sink.Permits acts (sink.perform acts).taken (sink.perform acts).fault? := by
  induction acts generalizing sink with
  | nil => exact .all (fun _ _ => Nat.zero_le _) fun _ _ => Nat.zero_le _
  | cons act acts ih =>
    cases act with
    | write text =>
      have behind : IsAscii (Act.written acts) :=
        fun char member => ascii char (by simp [Act.written, member])
      rcases sink with ⟨_ | room, flushes⟩
      · exact Permits.write rfl (ih _ behind)
      · by_cases fits : text.utf8ByteSize ≤ room
        · rw [perform, write_of_fits flushes fits]
          have same : some room =
              (some (room - text.utf8ByteSize)).map (text.utf8ByteSize + ·) :=
            congrArg some (Nat.add_sub_of_le fits).symm
          exact Permits.write same (ih _ behind)
        · rw [perform, write_of_short flushes fits]
          exact .cut ascii rfl (Nat.lt_of_not_le fits)
    | flush =>
      rcases sink with ⟨room, _ | _ | flushes⟩
      · exact Permits.flush rfl (ih _ ascii)
      · exact @Permits.flushFailed _ (.flush :: acts) 0 rfl (Nat.succ_pos _) fun _ _ =>
          Nat.zero_le _
      · exact Permits.flush rfl (ih _ ascii)

theorem perform_unlimited (acts : List Act) :
    unlimited.perform acts = ⟨Act.written acts, Act.flushes acts, none, unlimited⟩ := by
  induction acts with
  | nil => rfl
  | cons act acts ih =>
    cases act with
    | write text =>
      change (unlimited.perform acts).behind text 0 = _
      rw [ih, Performance.behind, Nat.zero_add]
      rfl
    | flush =>
      change (unlimited.perform acts).behind "" 1 = _
      rw [ih, Performance.behind, String.empty_append, Nat.add_comm]
      rfl

end Sink

namespace Session

theorem written_append (first second : List Act) :
    Act.written (first ++ second) = Act.written first ++ Act.written second := by
  induction first with
  | nil => exact String.empty_append.symm
  | cons act first ih =>
    cases act with
    | write text => rw [List.cons_append, Act.written, Act.written, ih, String.append_assoc]
    | flush => exact ih

theorem written_asks (interactive : Bool) :
    Act.written (asks interactive) = prompts interactive := by
  cases interactive <;> rfl

theorem written_script (interactive : Bool) (lines : List String) :
    Act.written (script interactive lines) =
      prompts interactive ++ String.join (lines.map (· ++ prompts interactive)) := by
  rw [script, written_append, written_asks]
  congr 1
  induction lines with
  | nil => rfl
  | cons line lines ih =>
    rw [List.flatMap_cons, written_append, ih, Act.written, written_asks, List.map_cons,
      String.join_cons]

theorem flushes_script (interactive : Bool) (lines : List String) :
    Act.flushes (script interactive lines) = if interactive then lines.length + 1 else 0 := by
  have turns : Act.flushes (lines.flatMap fun line => .write line :: asks interactive) =
      if interactive then lines.length else 0 := by
    induction lines with
    | nil => cases interactive <;> rfl
    | cons line lines ih =>
      cases interactive with
      | false => exact ih
      | true => exact congrArg (· + 1) ih
  cases interactive with
  | false => exact turns
  | true => exact congrArg (· + 1) turns

/-- Over a sink without limits a session performs all of its script. -/
theorem run_unlimited (settings : Settings) (text : String) (interactive : Bool) :
    let results := resultsOfText settings text
    let lines := results.map (·.line)
    ∃ healthy, (ofText settings text interactive).run .unlimited =
        (.ok (.ofResults results), healthy) ∧
      healthy.shown = prompts interactive ++ String.join (lines.map (· ++ prompts interactive)) ∧
      healthy.flushes.length = if interactive then lines.length + 1 else 0 := by
  intro results lines
  obtain ⟨answer, shown, flushes⟩ := run_runs .unlimited (ofText settings text interactive)
    (Parser.settles_parserOfText settings text)
  rw [Sink.perform_unlimited] at answer shown flushes
  exact ⟨_, Prod.ext answer rfl, shown.trans (written_script interactive lines),
    flushes.trans (flushes_script interactive lines)⟩

end Session

end OpLang
