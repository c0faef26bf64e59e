import OpLang.Proofs.Parser.Records
import OpLang.Proofs.Session.Keeping

/-! # What sessions record

A session shows the records of its parser and, at the end, how much it has read. Over a reader that
never fails there is no failure among them, whatever the sink does.
-/

namespace OpLang

/-- A session over a reader that does not fail has shown no failure to read. -/
structure Session.Calm (session : Session (Lexer LineReader)) : Prop where
  parser : session.parser.Calm
  transcript : ∀ event, .event event ∈ session.transcript → event.Ordinary

/-- What a session does leaves it calm, whether the sink refuses or not. -/
def Doing.Calms {α : Type} (doing : Doing (Lexer LineReader) α) : Prop := doing.2.Calm

theorem Doing.Calms.andThen {α β : Type} {doing : Doing (Lexer LineReader) α}
    {next : α → Session (Lexer LineReader) → Doing (Lexer LineReader) β} (first : doing.Calms)
    (onwards : ∀ value session, session.Calm → (next value session).Calms) :
    (doing.andThen next).Calms := by
  rcases doing with ⟨fault | value, session⟩
  · exact first
  · exact onwards value session first

namespace Session.Calm

variable {session : Session (Lexer LineReader)} {parser : Parser (Lexer LineReader)}

theorem push (calm : session.Calm) (sink : Sink) {entry : Entry (Lexer LineReader)}
    (ordinary : ∀ event, entry = .event event → event.Ordinary) :
    Session.Calm { session with sink, transcript := session.transcript.push entry } := by
  refine ⟨calm.parser, fun event member => ?_⟩
  rcases Array.mem_push.mp member with earlier | same
  · exact calm.transcript event earlier
  · exact ordinary event same.symm

theorem resume (calm : session.Calm) (onwards : parser.Calm) : (session.resume parser).Calm := by
  refine ⟨⟨onwards.source, by simp [Session.resume]⟩, fun event member => ?_⟩
  rcases Array.mem_append.mp member with earlier | logged
  · exact calm.transcript event earlier
  · obtain ⟨_, inside, same⟩ := Array.mem_map.mp logged
    cases same
    exact onwards.log event inside

theorem write (calm : session.Calm) (text : String) : (session.write text).Calms := by
  unfold Session.write
  dsimp only
  split <;> exact calm.push _ nofun

theorem flush (calm : session.Calm) : session.flush.Calms := by
  unfold Session.flush
  dsimp only
  split <;> exact calm.push _ nofun

theorem prompt (calm : session.Calm) : session.prompt.Calms := by
  unfold Session.prompt
  split
  · exact (calm.write promptText).andThen fun _ _ asked => asked.flush
  · exact calm

theorem advance (calm : session.Calm) : session.advance.Calm :=
  calm.resume (Parser.outlasts_calm.advance calm.parser)

theorem start (calm : session.Calm) : session.start.Calms :=
  calm.prompt.andThen fun _ _ asked => asked.advance

theorem proceed (calm : session.Calm) (reply : Reply) : (session.proceed reply).Calms := by
  cases reply with
  | parsed item => exact calm.prompt
  | rejected error => exact calm.advance.prompt

theorem turn (calm : session.Calm) : session.turn.Calms := by
  have onwards := Parser.outlasts_calm.item? calm.parser
  rcases attempt : session.parser.item? with ⟨_ | result, rest⟩
  · rw [attempt] at onwards
    rw [turn_of_nothing attempt]
    exact calm.resume onwards
  · rw [attempt] at onwards
    rw [turn_of_some attempt]
    exact ((calm.resume onwards).write result.line).andThen fun _ _ answered =>
      (answered.proceed result.reply).andThen fun _ _ ready => ready

theorem takeTurns (calm : session.Calm) (report : Report) : (session.takeTurns report).Calms := by
  fun_induction Session.takeTurns report session with
  | case1 report session next turned =>
    have left := calm.turn
    rw [turned] at left
    exact left.push _ (by rintro _ ⟨⟩ _ ⟨⟩)
  | case2 report session reply next turned ih =>
    have left := calm.turn
    rw [turned] at left
    exact ih left
  | case3 report session fault next turned =>
    have left := calm.turn
    rw [turned] at left
    exact left

/-- A run shows no failure to read. -/
theorem run (sink : Sink) (calm : session.parser.Calm) : (session.run sink).Calms := by
  have begun : Session.Calm { session with sink, transcript := #[] } := ⟨calm, by simp⟩
  exact begun.start.andThen fun _ _ first => first.takeTurns .empty

end Session.Calm

end OpLang
