import OpLang.Session.Basic

/-! # Sessions over a sink without limits

Where the sink refuses nothing, whatever a session does succeeds, and only its parser decides what
it does. `Doing.Succeeds` keeps the value and the parser behind it and forgets what was shown.
-/

namespace OpLang

namespace Parser

variable {τ : Type}

/-- A parser whose log has become part of what a session shows. -/
def withoutLog (parser : Parser τ) : Parser τ := { parser with log := #[] }

end Parser

/-- A session succeeds with a value, and a parser and a sink without limits are left. -/
def Doing.Succeeds {τ α : Type} (doing : Doing τ α) (value : α) (parser : Parser τ) : Prop :=
  ∃ next, doing = (.ok value, next) ∧ next.parser = parser ∧ next.sink = .unlimited

theorem Doing.Succeeds.andThen {τ α β : Type} {doing : Doing τ α} {first : α} {middle : Parser τ}
    {onwards : α → Session τ → Doing τ β} {value : β} {parser : Parser τ}
    (succeeds : doing.Succeeds first middle)
    (goes : ∀ next : Session τ, next.parser = middle → next.sink = .unlimited →
      (onwards first next).Succeeds value parser) :
    (doing.andThen onwards).Succeeds value parser := by
  obtain ⟨next, rfl, same, unlimited⟩ := succeeds
  exact goes next same unlimited

namespace Session

variable {τ : Type} (session : Session τ) {rest : Parser τ}

theorem write_succeeds (text : String) (unlimited : session.sink = .unlimited) :
    (session.write text).Succeeds () session.parser := by
  unfold write
  rw [unlimited]
  exact ⟨_, rfl, rfl, rfl⟩

theorem flush_succeeds (unlimited : session.sink = .unlimited) :
    session.flush.Succeeds () session.parser := by
  unfold flush
  rw [unlimited]
  exact ⟨_, rfl, rfl, rfl⟩

theorem prompt_succeeds (unlimited : session.sink = .unlimited) :
    session.prompt.Succeeds () session.parser := by
  unfold prompt
  split
  · refine (write_succeeds session promptText unlimited).andThen fun next same sink => ?_
    exact same ▸ flush_succeeds next sink
  · exact ⟨session, rfl, rfl, unlimited⟩

variable [TokenSource τ]

theorem start_succeeds (unlimited : session.sink = .unlimited) :
    session.start.Succeeds () session.parser.advance.withoutLog := by
  refine (prompt_succeeds session unlimited).andThen fun next same sink => ?_
  exact ⟨next.advance, rfl, congrArg (·.advance.withoutLog) same, sink⟩

/-- The last turn finds nothing but semicolons. -/
theorem turn_of_none (unlimited : session.sink = .unlimited)
    (attempt : session.parser.item? = (none, rest)) :
    session.turn.Succeeds none rest.withoutLog := by
  have answered : session.answer = (.ok none, session.resume rest) := by
    rw [answer, attempt]
  rw [turn, answered]
  exact ⟨session.resume rest, rfl, rfl, unlimited⟩

theorem turn_of_ok {kind : ItemKind} {item : Item} (unlimited : session.sink = .unlimited)
    (attempt : session.parser.item? = (some ⟨kind, .ok item⟩, rest)) :
    session.turn.Succeeds (some (.parsed item)) rest.withoutLog := by
  have answered : session.answer.Succeeds (some (.parsed item)) rest.withoutLog := by
    rw [answer, attempt]
    refine (write_succeeds (session.resume rest) _ unlimited).andThen ?_
    exact fun next same sink => ⟨next, rfl, same, sink⟩
  refine answered.andThen fun next same sink => ?_
  refine Doing.Succeeds.andThen (same ▸ prompt_succeeds next sink) ?_
  exact fun next same sink => ⟨next, rfl, same, sink⟩

/-- After an error the offender is passed. -/
theorem turn_of_error {kind : ItemKind} {error : ParseError}
    (unlimited : session.sink = .unlimited)
    (attempt : session.parser.item? = (some ⟨kind, .error error⟩, rest)) :
    session.turn.Succeeds (some (.rejected error)) rest.withoutLog.advance.withoutLog := by
  have answered : session.answer.Succeeds (some (.rejected error)) rest.withoutLog := by
    rw [answer, attempt]
    refine (write_succeeds (session.resume rest) _ unlimited).andThen ?_
    exact fun next same sink => ⟨next, rfl, same, sink⟩
  refine answered.andThen fun next same sink => ?_
  have proceeded :
      (next.proceed (.rejected error)).Succeeds () rest.withoutLog.advance.withoutLog :=
    same ▸ prompt_succeeds next.advance sink
  exact proceeded.andThen fun next same sink => ⟨next, rfl, same, sink⟩

end Session

end OpLang
