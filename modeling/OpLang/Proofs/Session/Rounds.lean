import OpLang.Proofs.Session.Keeping
import OpLang.Proofs.Session.Limits

/-! # Sessions that are run in rounds

A session may be run again and again, each time with prompts or without and over a sink of its own.
A round whose first prompt is refused reads nothing. Every other round reads at least the next
token, and one that comes to its end reads all of them. What has been read is not read again.
-/

namespace OpLang

/-- One run of a session: whether it prompts, and over which sink. -/
structure Round where
  interactive : Bool
  sink : Sink
deriving DecidableEq, Repr

/-- The sink of the round does not refuse the first prompt, if there is one. -/
def Round.begins (round : Round) : Bool :=
  (round.sink.perform (Session.asks round.interactive)).fault?.isNone

namespace Parser

variable {τ : Type} [TokenSource τ] {parser : Parser τ} {settings : Settings}
  {tokens : List LocatedToken} {finish : Location} {least : Nat}

/-- A parser has used at least so many of some tokens, and one of the others or the end of input is
at hand. -/
structure HasUsed (settings : Settings) (tokens : List LocatedToken) (finish : Location)
    (least : Nat) (parser : Parser τ) : Prop where
  settings : parser.settings = settings
  left : ∃ index, least ≤ index ∧ parser.Holds (tokens.drop index) finish

theorem HasUsed.keeps : Keeps (HasUsed settings tokens finish least (τ := τ)) where
  advance := by
    rintro parser ⟨known, index, enough, holds⟩
    refine ⟨known, index + 1, Nat.le_succ_of_le enough, ?_⟩
    rw [← List.tail_drop]
    exact holds.advance
  log := by
    rintro parser log ⟨known, index, enough, holds⟩
    exact ⟨known, index, enough, holds.log log⟩

/-- Where the end of input is at hand, all tokens have been used. -/
theorem HasUsed.of_finished (used : parser.HasUsed settings tokens finish least)
    (finished : parser.current = .endOfInput) :
    parser.HasUsed settings tokens finish tokens.length := by
  obtain ⟨known, index, _, holds⟩ := used
  exact ⟨known, index, List.drop_eq_nil_iff.mp (holds.eq_nil_iff.mpr finished), holds⟩

/-- Where all tokens have been used, the end of input is at hand. -/
theorem HasUsed.finished (used : parser.HasUsed settings tokens finish tokens.length) :
    parser.current = .endOfInput := by
  obtain ⟨_, index, enough, holds⟩ := used
  exact holds.eq_nil_iff.mp (List.drop_eq_nil_of_le enough)

end Parser

namespace Session

variable {τ : Type} [TokenSource τ] {session next : Session τ} {holds : Parser τ → Prop}

/-- Run a session for a round. -/
def round (session : Session τ) (round : Round) : Doing τ Report :=
  { session with interactive := round.interactive }.run round.sink

/-- A session after some rounds. -/
def afterRounds (session : Session τ) (rounds : List Round) : Session τ :=
  rounds.foldl (fun session round => (session.round round).2) session

theorem afterRounds_append (session : Session τ) (rounds later : List Round) :
    session.afterRounds (rounds ++ later) = (session.afterRounds rounds).afterRounds later :=
  List.foldl_append

theorem afterRounds_keeps (keeps : Parser.Keeps holds) (held : holds session.parser)
    (rounds : List Round) : holds (session.afterRounds rounds).parser := by
  induction rounds generalizing session with
  | nil => exact held
  | cons round rounds ih => exact ih (run_keeps keeps round.sink held)

/-- Behind the last turn the end of input is at hand. -/
theorem current_of_takeTurns {report whole : Report}
    (ended : session.takeTurns report = (.ok whole, next)) :
    next.parser.current = .endOfInput := by
  fun_induction takeTurns report session with
  | case1 report session last turned =>
    cases ended
    obtain ⟨rest, attempt, rfl⟩ := exists_of_turn_none turned
    have finished := Parser.current_of_nothing attempt
    exact finished
  | case2 report session reply middle turned ih => exact ih ended
  | case3 => simp at ended

variable {round : Round} {rounds : List Round}

theorem current_of_round {report : Report} (ended : (session.round round).1 = .ok report) :
    (session.round round).2.parser.current = .endOfInput := by
  obtain ⟨_, first, _, taken⟩ := Doing.andThen_eq_ok_iff.mp (Prod.ext ended rfl)
  exact current_of_takeTurns taken

/-- A round whose first prompt is refused fails and leaves the parser as it is. -/
theorem round_of_refused (session : Session τ) (refused : round.begins = false) :
    ∃ fault next, session.round round = (.error fault, next) ∧ next.parser = session.parser := by
  obtain ⟨fault, refusal⟩ := Option.isSome_iff_exists.mp (Option.isNone_eq_false_iff.mp refused)
  let begun : Session τ := { session with
    interactive := round.interactive, sink := round.sink, transcript := #[] }
  have asked : begun.prompt.1 = .error fault := by
    rw [(prompt_performs begun).answer, Performance.answer, refusal]
  have prompted : begun.prompt = (.error fault, begun.prompt.2) := Prod.ext asked rfl
  refine ⟨fault, begun.prompt.2, ?_, parser_prompt begun⟩
  rw [Session.round, run, start, prompted]
  rfl

/-- A round that comes to its end has begun. -/
theorem begins_of_round {report : Report} (ended : (session.round round).1 = .ok report) :
    round.begins = true := by
  cases begins : round.begins with
  | true => rfl
  | false =>
    obtain ⟨fault, next, failed, _⟩ := session.round_of_refused begins
    rw [failed] at ended
    contradiction

/-- A round that begins reads a token, and keeps what holds from there on. -/
theorem round_leaves (keeps : Parser.Keeps holds) (begins : round.begins = true)
    (held : holds session.parser.advance) : (session.round round).Leaves holds := by
  let begun : Session τ := { session with
    interactive := round.interactive, sink := round.sink, transcript := #[] }
  have asked : begun.prompt.1 = .ok () := by
    rw [(prompt_performs begun).answer, Performance.answer, Option.isNone_iff_eq_none.mp begins]
  have prompted : begun.prompt = (.ok (), begun.prompt.2) := Prod.ext asked rfl
  have same : begun.prompt.2.parser = session.parser := parser_prompt begun
  rw [Session.round, run, start, prompted]
  apply takeTurns_keeps keeps .empty
  rw [← same] at held
  exact keeps.log #[] held

/-- Rounds that do not begin leave the parser as it is. -/
theorem parser_afterRounds (refused : ∀ round ∈ rounds, round.begins = false) :
    (session.afterRounds rounds).parser = session.parser := by
  induction rounds generalizing session with
  | nil => rfl
  | cons round rounds ih =>
    obtain ⟨first, others⟩ := List.forall_mem_cons.mp refused
    obtain ⟨_, next, failed, same⟩ := session.round_of_refused first
    rw [afterRounds, List.foldl_cons, failed]
    exact (ih others).trans same

/-- Behind rounds one of which has begun, what holds from the first token on holds. -/
theorem afterRounds_leaves (keeps : Parser.Keeps holds)
    (begun : ∃ round ∈ rounds, round.begins = true) (held : holds session.parser.advance) :
    holds (session.afterRounds rounds).parser := by
  induction rounds generalizing session with
  | nil => simp at begun
  | cons round rounds ih =>
    rw [afterRounds, List.foldl_cons]
    cases begins : round.begins with
    | true => exact afterRounds_keeps keeps (round_leaves keeps begins held) rounds
    | false =>
      obtain ⟨_, next, failed, same⟩ := session.round_of_refused begins
      rw [failed]
      refine ih ?_ (same ▸ held)
      simpa [begins] using begun

/-- After a round that has come to its end, the end of input stays at hand. -/
theorem current_afterRounds {settings : Settings} {tokens : List LocatedToken} {finish : Location}
    {earlier : List Round} {report : Report}
    (used : session.parser.advance.HasUsed settings tokens finish 0)
    (ended : ((session.afterRounds earlier).round round).1 = .ok report) (later : List Round) :
    (session.afterRounds (earlier ++ round :: later)).parser.current = .endOfInput := by
  let last := ((session.afterRounds earlier).round round).2
  have upTo : session.afterRounds (earlier ++ [round]) = last := afterRounds_append session _ _
  have whole : session.afterRounds (earlier ++ round :: later) = last.afterRounds later :=
    afterRounds_append session _ _
  have begun : ∃ other ∈ earlier ++ [round], other.begins = true :=
    ⟨round, by simp, begins_of_round ended⟩
  have behind := afterRounds_leaves Parser.HasUsed.keeps begun used
  rw [upTo] at behind
  have all := behind.of_finished (current_of_round ended)
  rw [whole]
  exact (afterRounds_keeps Parser.HasUsed.keeps all later).finished

end Session

end OpLang
