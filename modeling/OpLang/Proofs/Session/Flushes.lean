import OpLang.Proofs.Session.Results

/-! # When interactive sessions flush

An interactive session flushes once before it reads anything and once at the end of every turn that
answers. At each flush the sink has received everything shown so far, and nothing happens between
the flush and the end of the turn, so the flush shows where the next turn begins.
-/

namespace OpLang

namespace Transcript

variable {τ : Type}

theorem output_cons_output (text : String) (others : List (Entry τ)) :
    output (.output text :: others) = text ++ output others :=
  String.join_cons

theorem flushesAfter_append (received : Nat) (first second : List (Entry τ)) :
    flushesAfter received (first ++ second) = flushesAfter received first ++
      flushesAfter (received + (output first).utf8ByteSize) second := by
  induction first generalizing received with
  | nil => rfl
  | cons entry first ih =>
    cases entry with
    | event event => exact ih received
    | output text =>
      rw [output_cons_output, String.utf8ByteSize_append, ← Nat.add_assoc]
      exact ih (received + text.utf8ByteSize)
    | flush tokens => exact congrArg (_ :: ·) (ih received)

theorem flushesAfter_events (received : Nat) (events : List Event) :
    flushesAfter received (events.map (Entry.event : Event → Entry τ)) = [] := by
  induction events with
  | nil => rfl
  | cons event events ih => exact ih

/-- Log records are no flushes. -/
theorem flushes_append_events (transcript : List (Entry τ)) (events : List Event) :
    flushes (transcript ++ events.map .event) = flushes transcript := by
  rw [flushes, flushesAfter_append, flushesAfter_events, List.append_nil, flushes]

end Transcript

namespace Session

variable {τ : Type} (session : Session τ)

/-- The flushes of a session since it was last run. -/
def flushes : List (Flush τ) := Transcript.flushes session.transcript.toList

/-- What a flush would show now. -/
def point : Flush τ := ⟨session.shown.utf8ByteSize, session.parser.tokens⟩

@[simp] theorem flushes_resume (parser : Parser τ) :
    (session.resume parser).flushes = session.flushes := by
  rw [flushes, resume, Array.toList_append, Array.toList_map, Transcript.flushes_append_events,
    flushes]

@[simp] theorem flushes_record (event : Event) :
    (session.record event).flushes = session.flushes := by
  rw [flushes, record, Array.toList_push]
  exact Transcript.flushes_append_events _ [event]

theorem flushes_write (text : String) : (session.write text).2.flushes = session.flushes := by
  have shown (taken : String) :
      Transcript.flushes (session.transcript.toList ++ [.output taken]) = session.flushes := by
    rw [Transcript.flushes, Transcript.flushesAfter_append]
    exact List.append_nil _
  unfold write
  dsimp only
  split
  · exact (congrArg Transcript.flushes Array.toList_push).trans (shown _)
  · exact (congrArg Transcript.flushes Array.toList_push).trans (shown _)

theorem flushes_flush : session.flush.2.flushes = session.flushes ++ [session.point] := by
  have flushed : Transcript.flushes (session.transcript.toList ++ [.flush session.parser.tokens]) =
      session.flushes ++ [session.point] := by
    rw [Transcript.flushes, Transcript.flushesAfter_append, Nat.zero_add]
    rfl
  unfold flush
  dsimp only
  split
  · exact (congrArg Transcript.flushes Array.toList_push).trans flushed
  · exact (congrArg Transcript.flushes Array.toList_push).trans flushed

@[simp] theorem point_flush : session.flush.2.point = session.point := by
  have shown := shown_push session session.sink.flush.2 (.flush session.parser.tokens)
  have same : session.flush.2.shown = session.shown := by
    unfold flush
    dsimp only
    split
    · exact shown.trans String.append_empty
    · exact shown.trans String.append_empty
  rw [point, point, same, parser_flush]

@[simp] theorem interactive_write (text : String) :
    (session.write text).2.interactive = session.interactive := by
  unfold write
  dsimp only
  split <;> rfl

@[simp] theorem interactive_flush : session.flush.2.interactive = session.interactive := by
  unfold flush
  dsimp only
  split <;> rfl

@[simp] theorem interactive_prompt : session.prompt.2.interactive = session.interactive := by
  unfold prompt
  split
  · exact (Doing.read_andThen (·.interactive) fun _ asked => interactive_flush asked).trans
      (interactive_write session promptText)
  · rfl

variable {session} {next first : Session τ}

/-- A prompt ends with a flush. -/
theorem flushes_prompt (interactive : session.interactive = true)
    (prompted : session.prompt = (.ok (), next)) :
    next.interactive = true ∧ next.flushes = session.flushes ++ [next.point] := by
  have asks := interactive_prompt session
  rw [prompted] at asks
  refine ⟨asks.trans interactive, ?_⟩
  rw [prompt, if_pos interactive] at prompted
  obtain ⟨_, asked, wrote, flushed⟩ := Doing.andThen_eq_ok_iff.mp prompted
  have before := flushes_write session promptText
  have behind := flushes_flush asked
  have point := point_flush asked
  rw [wrote] at before
  rw [flushed] at behind point
  rw [behind, before, point]

variable [TokenSource τ]

/-- What is flushed before anything is read is the source of tokens as it was. -/
theorem flushes_start (interactive : session.interactive = true)
    (started : session.start = (.ok (), first)) :
    first.interactive = true ∧ ∃ received,
      first.flushes = session.flushes ++ [⟨received, session.parser.tokens⟩] := by
  obtain ⟨_, asked, prompted, read⟩ := Doing.andThen_eq_ok_iff.mp started
  obtain ⟨asks, flushed⟩ := flushes_prompt interactive prompted
  have same := parser_prompt session
  rw [prompted] at same
  cases read
  refine ⟨asks, asked.shown.utf8ByteSize, ?_⟩
  rw [advance, flushes_resume, flushed, point, same]

theorem flushes_proceed {reply : Reply} (interactive : session.interactive = true)
    (proceeded : session.proceed reply = (.ok (), next)) :
    next.interactive = true ∧ next.flushes = session.flushes ++ [next.point] := by
  cases reply with
  | parsed item => exact flushes_prompt interactive proceeded
  | rejected error =>
    have asks : session.advance.interactive = true := interactive
    have flushed := flushes_prompt asks proceeded
    rw [advance, flushes_resume] at flushed
    exact flushed

/-- A turn that finds nothing more does not flush. -/
theorem flushes_turn_of_none (turned : session.turn = (.ok none, next)) :
    next.flushes = session.flushes := by
  rcases attempt : session.parser.item? with ⟨_ | result, rest⟩
  · rw [turn_of_nothing attempt] at turned
    cases turned
    exact flushes_resume session rest
  · rw [turn_of_some attempt] at turned
    obtain ⟨_, _, _, turned⟩ := Doing.andThen_eq_ok_iff.mp turned
    obtain ⟨_, _, _, turned⟩ := Doing.andThen_eq_ok_iff.mp turned
    cases turned

/-- A turn that answers ends with its only flush. -/
theorem flushes_turn {reply : Reply} (interactive : session.interactive = true)
    (turned : session.turn = (.ok (some reply), next)) :
    next.interactive = true ∧ next.flushes = session.flushes ++ [next.point] := by
  rcases attempt : session.parser.item? with ⟨_ | result, rest⟩
  · simp [turn_of_nothing attempt] at turned
  · rw [turn_of_some attempt] at turned
    obtain ⟨_, answered, wrote, turned⟩ := Doing.andThen_eq_ok_iff.mp turned
    obtain ⟨_, ready, proceeded, turned⟩ := Doing.andThen_eq_ok_iff.mp turned
    cases turned
    have silent := flushes_write (session.resume rest) result.line
    have asks := interactive_write (session.resume rest) result.line
    rw [wrote] at silent asks
    rw [flushes_resume] at silent
    have flushed := flushes_proceed (asks.trans interactive) proceeded
    rw [silent] at flushed
    exact flushed

end Session

end OpLang
