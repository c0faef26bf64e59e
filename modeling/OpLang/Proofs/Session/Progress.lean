import OpLang.Proofs.Lexer.Layout
import OpLang.Proofs.Session.Lines

/-! # Reading comes to an end

Each call for an item passes the semicolons in front of it and then at least the token behind them,
or it fails and that token is still at hand. A session passes the offender of an error, so whichever
of the two happens, every turn takes it forward. It follows that every run comes to its end, over
any sink and by any settings, and that it replies no more often than there are tokens besides the
semicolons that it skips. Programs are read by the same calls.
-/

namespace OpLang

open Grammar

namespace Parser

variable {τ : Type} [TokenSource τ] {parser rest : Parser τ} {result : ItemResult}

/-- A call for an item that finds one or an error passes semicolons and, behind them, the next token
at least, unless it is an error and leaves that token at hand. -/
structure GetsOn (parser : Parser τ) (result : ItemResult) (rest : Parser τ) : Prop where
  skips : ∃ semicolons, parser.Passes semicolons parser.skipSemicolons ∧
    ∀ token ∈ semicolons, token.token = .symbol ';'
  found : parser.skipSemicolons.current ≠ .endOfInput
  other : parser.skipSemicolons.current ≠ .symbol ';'
  passes : ∃ passed, parser.skipSemicolons.Passes passed rest ∧
    (passed.head? = some parser.skipSemicolons.here ∨
      passed = [] ∧ rest.here = parser.skipSemicolons.here ∧
        ∃ error, result.result = .error error)

/-- The first token that is passed is the one at hand. -/
theorem Passes.head_or_stays {passed : List LocatedToken} (passes : Passes parser passed rest) :
    passed.head? = some parser.here ∨ passed = [] ∧ rest.here = parser.here := by
  induction passes with
  | stay => exact .inr ⟨rfl, rfl⟩
  | advance => exact .inl rfl
  | record _ _ ih => exact ih

/-- An item is not found at the end of input. -/
theorem current_ne_of_found (attempt : parser.item? = (some result, rest)) :
    parser.current ≠ .endOfInput := by
  intro finished
  have other : parser.current ≠ .symbol ';' := by
    rw [finished]
    simp
  rw [item?_of_other other, itemHere?, finished] at attempt
  cases attempt

theorem getsOn (attempt : parser.item? = (some result, rest)) : parser.GetsOn result rest := by
  have found := @current_ne_of_found _ _ parser.skipSemicolons rest result
    ((item?_of_other (current_skipSemicolons_ne parser)).trans attempt)
  refine ⟨skipSemicolons_passes parser, found, current_skipSemicolons_ne parser, ?_⟩
  have attempted := attempts_item? parser
  rw [attempt] at attempted
  cases attempted with
  | @parsed _ _ _ passed passes reads =>
    rcases passes.head_or_stays with head | ⟨nothing, _⟩
    · exact ⟨passed, passes, .inl head⟩
    · exact absurd nothing (reads.ne_nil passes)
  | @rejected _ error _ passed _ passes =>
    rcases passes.head_or_stays with head | ⟨nothing, stays⟩
    · exact ⟨passed, passes, .inl head⟩
    · exact ⟨passed, passes, .inr ⟨nothing, stays, error, rfl⟩⟩

/-- Where no item is found, all tokens are semicolons. -/
theorem semicolons_of_none (attempt : parser.item? = (none, rest)) :
    ∀ token ∈ parser.ahead, token.token = .symbol ';' := by
  obtain ⟨semicolons, skips, only⟩ := skipSemicolons_passes parser
  have attempted := attempts_item? parser
  rw [attempt] at attempted
  cases attempted with
  | finished current =>
    rw [skips.ahead_eq, ahead_eq_nil_iff.mpr current, List.append_nil]
    exact only

end Parser

/-! ### Turns -/

variable {σ : Type} [CharSource σ] {session next last : Session (Lexer σ)} {settings : Settings}
  {episodes : List Episode}

namespace Session

/-- Whatever its sink is, a turn that replies passes an episode. -/
theorem exists_episode_of_turn {reply : Reply} (turned : session.turn = (.ok (some reply), next)) :
    ∃ episode, episode.reply = reply ∧ Turn session.parser.settings session episode next ∧
      session.parser.ahead = episode.tokens ++ next.parser.ahead ∧
      next.parser.settings = session.parser.settings := by
  rcases attempt : session.parser.item? with ⟨_ | result, rest⟩
  · rw [turn_of_nothing attempt] at turned
    cases turned
  -- Over a sink without limits the turn passes the same tokens, since the parser is the same.
  let free : Session (Lexer σ) := { session with sink := .unlimited }
  have unlimited : free.sink = .unlimited := rfl
  have freeAttempt : free.parser.item? = (some result, rest) := attempt
  have ends : free.parser.EndsForGood := fun finished =>
    absurd finished (Parser.current_ne_of_found freeAttempt)
  rcases exists_turn unlimited rfl ends with
    ⟨_, none, _⟩ | ⟨episode, other, turn, tokens, _, known, _⟩
  · obtain ⟨_, nothing, _⟩ := exists_of_turn_none none
    cases freeAttempt.symm.trans nothing
  · have same : other.parser = next.parser :=
      (parser_turn freeAttempt turn.turned).trans (parser_turn attempt turned).symm
    have reply : episode.reply = reply := Option.some.inj
      ((reply_of_turn freeAttempt turn.turned).trans (reply_of_turn attempt turned).symm)
    rw [same] at tokens known
    exact ⟨episode, reply, ⟨reply ▸ turned, turn.skips, turn.semicolons, turn.piece, turn.filled⟩,
      tokens, known⟩

/-- A turn that finds nothing more has only semicolons ahead of it. -/
theorem semicolons_of_ended (ended : session.turn.1 = .ok none) :
    ∀ token ∈ session.parser.ahead, token.token = .symbol ';' := by
  obtain ⟨rest, attempt, _⟩ := exists_of_turn_none (Prod.ext ended rfl)
  exact Parser.semicolons_of_none attempt

end Session

/-- Every turn takes the session forward. -/
theorem Turn.forward {episode : Episode} (turn : Turn settings session episode next)
    (tokens : session.parser.ahead = episode.tokens ++ next.parser.ahead) :
    next.parser.ahead.length < session.parser.ahead.length := by
  have filled := List.length_pos_iff.mpr turn.filled
  rw [tokens, Episode.tokens, List.length_append, List.length_append]
  omega

/-- Each reply is reported, as an item or as an error. -/
theorem Report.size_foldl_add (replies : List Reply) :
    (replies.foldl add empty).items.size + (replies.foldl add empty).errors.size =
      replies.length := by
  rw [← Array.length_toList, ← Array.length_toList, items_foldl_add, errors_foldl_add]
  exact length_replies replies

/-- There are no more turns than tokens behind the semicolons that are skipped. -/
theorem Turns.length_le (turns : Turns settings session episodes last) :
    episodes.length + (episodes.flatMap Episode.semicolons).length ≤
      (episodes.flatMap Episode.tokens).length := by
  induction turns with
  | nil => exact Nat.le_refl _
  | @cons _ _ _ episode _ turn _ ih =>
    have filled := List.length_pos_iff.mpr turn.filled
    simp only [List.flatMap_cons, List.length_append, List.length_cons, Episode.tokens]
    omega

/-! ### Runs -/

namespace Session

/-- The session at the beginning of a run over a sink. -/
def begun {τ : Type} (session : Session τ) (sink : Sink) : Session τ :=
  { session with sink, transcript := #[] }

/-- The course of a run: after its start a session takes turns. They pass the tokens that are ahead
of it, and there are no more of them than tokens besides the skipped semicolons and those that are
left. -/
structure Course (session : Session (Lexer σ)) (sink : Sink) (episodes : List Episode)
    (last : Session (Lexer σ)) : Prop where
  turns : ∃ first, (session.begun sink).start = (.ok (), first) ∧
    Turns session.parser.settings first episodes last
  tokens : session.parser.advance.ahead = episodes.flatMap Episode.tokens ++ last.parser.ahead
  bound : episodes.length +
      (episodes.flatMap Episode.semicolons ++ last.parser.ahead).length ≤
    session.parser.advance.ahead.length

/-- The ends that a run over a sink may have: the first prompt is refused, or the sink refuses in
some turn, or nothing but semicolons is left and all replies are reported. -/
inductive Ends (session : Session (Lexer σ)) (sink : Sink) : Except SinkFault Report → Prop where
  | unstarted {fault : SinkFault} (start : (session.begun sink).start.1 = .error fault) :
    Ends session sink (.error fault)
  | refused {episodes : List Episode} {last : Session (Lexer σ)} {fault : SinkFault}
    (course : session.Course sink episodes last) (turn : last.turn.1 = .error fault) :
    Ends session sink (.error fault)
  | finished {episodes : List Episode} {last : Session (Lexer σ)} {report : Report}
    (course : session.Course sink episodes last) (turn : last.turn.1 = .ok none)
    (semicolons : ∀ token ∈ last.parser.ahead, token.token = .symbol ';')
    (replies : report = (episodes.map (·.reply)).foldl .add .empty)
    (count : report.items.size + report.errors.size = episodes.length) :
    Ends session sink (.ok report)

/-- Turns behind the start of a run are its course. -/
theorem course_of_turns {sink : Sink} {first : Session (Lexer σ)}
    (started : (session.begun sink).start = (.ok (), first))
    (turns : Turns session.parser.settings first episodes last)
    (tokens : session.parser.advance.ahead =
      episodes.flatMap Episode.tokens ++ last.parser.ahead) :
    session.Course sink episodes last := by
  refine ⟨⟨first, started, turns⟩, tokens, ?_⟩
  have bound := turns.length_le
  rw [tokens, List.length_append, List.length_append]
  omega

/-- Turns are taken until the input ends or the sink refuses. -/
theorem takeTurns_ends (report : Report) (known : session.parser.settings = settings) :
    ∃ episodes last, Turns settings session episodes last ∧
      session.parser.ahead = episodes.flatMap Episode.tokens ++ last.parser.ahead ∧
      ((∃ fault, last.turn.1 = .error fault ∧ (session.takeTurns report).1 = .error fault) ∨
        last.turn.1 = .ok none ∧
          (session.takeTurns report).1 = .ok ((episodes.map (·.reply)).foldl .add report)) := by
  fun_induction takeTurns report session with
  | case1 report session next turned =>
    exact ⟨[], session, .nil session, rfl, .inr ⟨by rw [turned], rfl⟩⟩
  | case2 report session reply next turned ih =>
    obtain ⟨episode, rfl, turn, tokens, kept⟩ := exists_episode_of_turn turned
    obtain ⟨episodes, last, turns, left, ending⟩ := ih (kept.trans known)
    refine ⟨episode :: episodes, last, .cons (known ▸ turn) turns, ?_, ending⟩
    rw [tokens, left, List.flatMap_cons, List.append_assoc]
  | case3 report session fault next turned =>
    exact ⟨[], session, .nil session, rfl, .inl ⟨fault, by rw [turned], rfl⟩⟩

/-- Every run comes to one of its ends. -/
theorem run_ends (session : Session (Lexer σ)) (sink : Sink) :
    session.Ends sink (session.run sink).1 := by
  have ran : session.run sink = (session.begun sink).start.andThen fun _ first =>
      first.takeTurns .empty := rfl
  rcases started : (session.begun sink).start with ⟨fault | ⟨⟩, first⟩
  · rw [ran, started]
    exact .unstarted (by rw [started])
  have parser : first.parser = (session.begun sink).parser.advance.withoutLog :=
    parser_start started
  have known : first.parser.settings = session.parser.settings := congrArg (·.settings) parser
  have ahead : first.parser.ahead = session.parser.advance.ahead := congrArg (·.ahead) parser
  obtain ⟨episodes, last, turns, tokens, ending⟩ := takeTurns_ends .empty known
  have course : session.Course sink episodes last :=
    course_of_turns started turns (ahead.symm.trans tokens)
  rw [ran, started]
  rcases ending with ⟨fault, refused, answer⟩ | ⟨ended, answer⟩
  · exact answer ▸ .refused course refused
  · have count := Report.size_foldl_add (episodes.map (·.reply))
    rw [List.length_map] at count
    exact answer ▸ .finished course ended (semicolons_of_ended ended) rfl count

end Session

/-! ### Programs -/

/-- A program has no more items and errors than there are results. -/
theorem ProgramReading.size_ofResults (read : Array Item) (results : List ItemResult) :
    (ofResults read results).items.size + (ofResults read results).error?.toList.length ≤
      read.size + results.length := by
  fun_induction ofResults read results with
  | case1 => exact Nat.le_refl _
  | case2 read kind item results ih =>
    rw [Array.size_push] at ih
    rw [List.length_cons]
    omega
  | case3 read kind error results =>
    simp only [Option.toList_some, List.length_cons, List.length_nil]
    omega

/-- Reading a program finds the items of the replies that a session makes, up to the first error. So
it finds no more than a session that reads the text to its end. -/
structure ProgramEnds (settings : Settings) (text : String) : Prop where
  reads : (readProgram settings text).1 = .ofResults #[] (resultsOfText settings text)
  bound : ∃ episodes last, (Session.ofText settings text false).Course .unlimited episodes last ∧
    last.turn.1 = .ok none ∧ (∀ token ∈ last.parser.ahead, token.token = .symbol ';') ∧
    (resultsOfText settings text).map (·.reply) = episodes.map (·.reply) ∧
    (readProgram settings text).1.items.size + (readProgram settings text).1.error?.toList.length ≤
      episodes.length

theorem programEnds (settings : Settings) (text : String) : ProgramEnds settings text := by
  obtain ⟨episodes, ⟨first, last, started, turns, ended, tokens, semicolons⟩, tells⟩ :=
    Session.exists_episodes settings text
  have ahead := Parser.ahead_parserOfText settings text
  have course : (Session.ofText settings text false).Course .unlimited episodes last :=
    Session.course_of_turns started turns (ahead.trans tokens)
  have replies := map_reply_of_tells tells
  have reads := readProgram_eq_ofResults settings text
  refine ⟨reads, episodes, last, course, ended, semicolons, replies, ?_⟩
  have size := ProgramReading.size_ofResults #[] (resultsOfText settings text)
  have count := congrArg List.length replies
  rw [List.length_map, List.length_map] at count
  rw [reads, ← count]
  exact size.trans (Nat.le_of_eq (Nat.zero_add _))

/-- Reading from a source comes to an end, whatever the settings are. -/
structure ReadingEnds (σ : Type) [CharSource σ] : Prop where
  /-- The calls that a parser makes to read an expression are finitely many. -/
  calls : ∀ {α : Type} (task : Parser.Task α) (parser : Parser (Lexer σ)),
    Parser.Runs task parser (task.run parser)
  items : ∀ {parser rest : Parser (Lexer σ)} {result : ItemResult},
    parser.item? = (some result, rest) → parser.GetsOn result rest
  turns : ∀ {session next : Session (Lexer σ)} {reply : Reply},
    session.turn = (.ok (some reply), next) →
      next.parser.ahead.length < session.parser.ahead.length
  runs : ∀ (session : Session (Lexer σ)) (sink : Sink), session.Ends sink (session.run sink).1
  /-- The tokens ahead of a session that has not been run yet are those of the whole input. -/
  tokens : ∀ (source : σ) (settings : Settings),
    (Parser.ofTokens (Lexer.ofSource source) settings).advance.ahead =
      locatedTokens (.ofList (CharSource.ahead source))

/-- Every run over every source of characters ends, and so does reading a program. -/
theorem reading_ends :
    (∀ (σ : Type) [CharSource σ], ReadingEnds σ) ∧
      ∀ (settings : Settings) (text : String), ProgramEnds settings text := by
  refine ⟨fun σ _ => ?_, programEnds⟩
  refine ⟨Parser.runs, Parser.getsOn, fun turned => ?_, Session.run_ends, fun source settings => ?_⟩
  · obtain ⟨episode, _, turn, tokens, _⟩ := Session.exists_episode_of_turn turned
    exact turn.forward tokens
  · obtain ⟨segments, finish, cut⟩ := exists_segmented (CharSource.ahead source)
    have cuts : Segmentation.Cuts ⟨segments, finish⟩
        (String.ofList (CharSource.ahead source)).toList := by
      rw [String.toList_ofList]
      exact cut
    rw [Parser.ahead_advance, Lexer.locatedTokens_eq cuts]
    exact Lexer.ahead_ofSource_of_segmented cut

end OpLang
