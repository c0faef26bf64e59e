import OpLang.Proofs.Session.Results

/-! # What sessions keep of their parsers

Whatever a session does and however its sink refuses, it changes its parser in two ways only: it
reads on, and it makes entries in the log. So what both of them keep is kept by every run.
-/

namespace OpLang

/-- The parser behind something that a session does has a property, whether the sink refused or
not. -/
def Doing.Leaves {τ α : Type} (holds : Parser τ → Prop) (doing : Doing τ α) : Prop :=
  holds doing.2.parser

theorem Doing.Leaves.andThen {τ α β : Type} {holds : Parser τ → Prop} {doing : Doing τ α}
    {next : α → Session τ → Doing τ β} (first : doing.Leaves holds)
    (onwards : ∀ value session, holds session.parser → (next value session).Leaves holds) :
    (doing.andThen next).Leaves holds := by
  rcases doing with ⟨fault | value, session⟩
  · exact first
  · exact onwards value session first

namespace Session

variable {τ : Type} {holds : Parser τ → Prop} {session : Session τ}

theorem write_keeps (held : holds session.parser) (text : String) :
    (session.write text).Leaves holds := by
  rw [Doing.Leaves, parser_write]
  exact held

theorem prompt_keeps (held : holds session.parser) : session.prompt.Leaves holds := by
  rw [Doing.Leaves, parser_prompt]
  exact held

variable [TokenSource τ]

theorem proceed_keeps (keeps : Parser.Keeps holds) (held : holds session.parser) (reply : Reply) :
    (session.proceed reply).Leaves holds := by
  cases reply with
  | parsed item => exact prompt_keeps held
  | rejected error =>
    apply prompt_keeps
    exact keeps.log #[] (keeps.advance held)

theorem start_keeps (keeps : Parser.Keeps holds) (held : holds session.parser) :
    session.start.Leaves holds := by
  apply (prompt_keeps held).andThen
  intro _ asked stillHeld
  exact keeps.log #[] (keeps.advance stillHeld)

theorem turn_keeps (keeps : Parser.Keeps holds) (held : holds session.parser) :
    session.turn.Leaves holds := by
  rcases attempt : session.parser.item? with ⟨_ | result, rest⟩
  · rw [turn_of_nothing attempt]
    exact keeps.log #[] (keeps.item? held attempt)
  · rw [turn_of_some attempt]
    have behind : holds (session.resume rest).parser := keeps.log #[] (keeps.item? held attempt)
    apply (write_keeps behind result.line).andThen
    intro _ answered stillHeld
    apply (proceed_keeps keeps stillHeld result.reply).andThen
    exact fun _ _ onwards => onwards

theorem takeTurns_keeps (keeps : Parser.Keeps holds) (report : Report)
    (held : holds session.parser) : (session.takeTurns report).Leaves holds := by
  fun_induction takeTurns report session with
  | case1 report session next turned | case3 report session fault next turned =>
    have left := turn_keeps keeps held
    rw [turned] at left
    exact left
  | case2 report session reply next turned ih =>
    have left := turn_keeps keeps held
    rw [turned] at left
    exact ih left

/-- A session may be run again and again, and its parser keeps what it has. -/
theorem run_keeps (keeps : Parser.Keeps holds) (sink : Sink) (held : holds session.parser) :
    (session.run sink).Leaves holds := by
  have begun : holds { session with sink, transcript := #[] }.parser := held
  apply (start_keeps keeps begun).andThen
  intro _ first stillHeld
  exact takeTurns_keeps keeps .empty stillHeld

end Session

end OpLang
