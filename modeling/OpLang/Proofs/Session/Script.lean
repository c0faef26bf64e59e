import OpLang.Proofs.Session.Flushes

/-! # What sessions ask of their sinks

What a session asks of its sink follows from the results of its input: a line for each, and prompts
around the lines if it is interactive. A sink performs these acts one after the other up to the
first that it refuses. So what a run shows and answers is settled by its results and the sink, and
by nothing else.
-/

namespace OpLang

/-- Something that a sink may be asked for. -/
inductive Act where
  | write (text : String)
  | flush
deriving DecidableEq, Repr

/-- What becomes of some acts: what the sink took, how often it was asked to flush, its refusal, and
the sink afterwards. -/
structure Performance where
  taken : String
  flushed : Nat
  fault? : Option SinkFault
  sink : Sink

/-- The answer of what performs some acts, if it is a value where the sink refuses nothing. -/
def Performance.answer {α : Type} (performance : Performance) (value : α) : Except SinkFault α :=
  match performance.fault? with
  | none => .ok value
  | some fault => .error fault

/-- The performance that goes on behind another one. -/
def Performance.behind (performance : Performance) (taken : String) (flushed : Nat) : Performance :=
  { performance with
    taken := taken ++ performance.taken
    flushed := flushed + performance.flushed }

/-- A sink performs acts up to the first that it refuses. -/
def Sink.perform (sink : Sink) : List Act → Performance
  | [] => ⟨"", 0, none, sink⟩
  | .write text :: acts =>
    match sink.write text with
    | (taken, none, rest) => (rest.perform acts).behind taken 0
    | (taken, some fault, rest) => ⟨taken, 0, some fault, rest⟩
  | .flush :: acts =>
    match sink.flush with
    | (none, rest) => (rest.perform acts).behind "" 1
    | (some fault, rest) => ⟨"", 1, some fault, rest⟩

/-- A sink goes on with more acts unless it has refused. -/
def Performance.onwards (performance : Performance) (acts : List Act) : Performance :=
  match performance.fault? with
  | none => (performance.sink.perform acts).behind performance.taken performance.flushed
  | some _ => performance

theorem Performance.behind_behind (performance : Performance) (taken taken' : String)
    (flushed flushed' : Nat) : (performance.behind taken flushed).behind taken' flushed' =
      performance.behind (taken' ++ taken) (flushed' + flushed) := by
  rw [behind, behind, behind, String.append_assoc, Nat.add_assoc]

theorem Performance.onwards_behind (performance : Performance) (taken : String) (flushed : Nat)
    (acts : List Act) :
    (performance.behind taken flushed).onwards acts =
      (performance.onwards acts).behind taken flushed := by
  rcases performance with ⟨_, _, _ | fault, sink⟩
  · exact (behind_behind _ _ _ _ _).symm
  · rfl

theorem Sink.perform_append (sink : Sink) (first second : List Act) :
    sink.perform (first ++ second) = (sink.perform first).onwards second := by
  induction first generalizing sink with
  | nil =>
    change sink.perform second = (sink.perform second).behind "" 0
    rw [Performance.behind, String.empty_append, Nat.zero_add]
  | cons act first ih =>
    cases act with
    | write text =>
      rw [List.cons_append, perform, perform]
      rcases sink.write text with ⟨taken, _ | fault, rest⟩
      · dsimp only
        rw [ih, Performance.onwards_behind]
      · rfl
    | flush =>
      rw [List.cons_append, perform, perform]
      rcases sink.flush with ⟨_ | fault, rest⟩
      · dsimp only
        rw [ih, Performance.onwards_behind]
      · rfl

/-- A session does what its sink makes of some acts, and with the value if nothing is refused. -/
structure Doing.Performs {τ α : Type} (session : Session τ) (acts : List Act) (value : α)
    (doing : Doing τ α) : Prop where
  answer : doing.1 = (session.sink.perform acts).answer value
  interactive : doing.2.interactive = session.interactive
  sink : doing.2.sink = (session.sink.perform acts).sink
  shown : doing.2.shown = session.shown ++ (session.sink.perform acts).taken
  flushes : doing.2.flushes.length = session.flushes.length + (session.sink.perform acts).flushed

theorem Doing.Performs.andThen {τ α β : Type} {session : Session τ} {first second : List Act}
    {value : α} {last : β} {doing : Doing τ α} {next : α → Session τ → Doing τ β}
    (performs : Performs session first value doing)
    (onwards : ∀ middle, doing = (.ok value, middle) →
      Performs middle second last (next value middle)) :
    Performs session (first ++ second) last (doing.andThen next) := by
  obtain ⟨answer, interactive, sink, shown, flushes⟩ := performs
  rcases doing with ⟨outcome, middle⟩
  dsimp only at *
  have whole := session.sink.perform_append first second
  unfold Performance.onwards at whole
  unfold Performance.answer at answer
  generalize session.sink.perform first = performance at *
  cases refused : performance.fault? with
  | some fault =>
    rw [refused] at answer whole
    subst answer
    refine ⟨?_, interactive, ?_, ?_, ?_⟩
    all_goals rw [whole]
    · rw [Performance.answer, refused]
      rfl
    · exact sink
    · exact shown
    · exact flushes
  | none =>
    rw [refused] at answer whole
    subst answer
    obtain ⟨answer', interactive', sink', shown', flushes'⟩ := onwards middle rfl
    rw [sink] at answer' sink' shown' flushes'
    refine ⟨?_, interactive'.trans interactive, ?_, ?_, ?_⟩
    all_goals rw [whole]
    · exact answer'
    · exact sink'
    · exact shown'.trans (by rw [shown, String.append_assoc]; rfl)
    · exact flushes'.trans (by rw [flushes, Nat.add_assoc]; rfl)

namespace Doing.Performs

variable {τ α : Type} {session : Session τ} {acts : List Act} {value : α} {doing : Doing τ α}

/-- Without acts nothing changes that the sink knows of. -/
theorem idle (session next : Session τ) (interactive : next.interactive = session.interactive)
    (sink : next.sink = session.sink) (shown : next.shown = session.shown)
    (flushes : next.flushes = session.flushes) (value : α) :
    Performs session [] value (.ok value, next) :=
  ⟨rfl, interactive, sink, shown.trans String.append_empty.symm, congrArg List.length flushes⟩

/-- Reading on is no act. -/
theorem of_resume {parser : Parser τ}
    (performs : Performs (session.resume parser) acts value doing) :
    Performs session acts value doing where
  answer := performs.answer
  interactive := performs.interactive
  sink := performs.sink
  shown := performs.shown.trans (by rw [Session.shown_resume]; rfl)
  flushes := performs.flushes.trans (by rw [Session.flushes_resume]; rfl)

end Doing.Performs

namespace Sink

variable (sink : Sink)

theorem perform_write (text : String) :
    sink.perform [.write text] =
      ⟨(sink.write text).1, 0, (sink.write text).2.1, (sink.write text).2.2⟩ := by
  rw [perform]
  rcases sink.write text with ⟨taken, _ | fault, rest⟩
  · simp [Performance.behind, perform]
  · rfl

theorem perform_flush : sink.perform [.flush] = ⟨"", 1, sink.flush.1, sink.flush.2⟩ := by
  rw [perform]
  rcases sink.flush with ⟨_ | fault, rest⟩ <;> rfl

end Sink

namespace Session

variable {τ : Type} (session : Session τ)

/-- The acts of a prompt, if there is one. -/
def asks (interactive : Bool) : List Act := if interactive then [.write promptText, .flush] else []

/-- The acts of a run that answers with these lines. -/
def script (interactive : Bool) (lines : List String) : List Act :=
  asks interactive ++ lines.flatMap fun line => .write line :: asks interactive

theorem write_eq (text : String) :
    session.write text = ((session.sink.perform [.write text]).answer (),
      { session with
        sink := (session.sink.write text).2.2
        transcript := session.transcript.push (.output (session.sink.write text).1) }) := by
  rw [write, Sink.perform_write]
  rcases session.sink.write text with ⟨taken, _ | fault, rest⟩ <;> rfl

theorem write_performs (text : String) :
    Doing.Performs session [.write text] () (session.write text) := by
  have flushes := congrArg List.length (flushes_write session text)
  rw [write_eq] at flushes ⊢
  refine ⟨rfl, rfl, ?_, ?_, ?_⟩
  all_goals rw [Sink.perform_write]
  · exact shown_push session _ (.output (session.sink.write text).1)
  · exact flushes

theorem flush_eq :
    session.flush = ((session.sink.perform [.flush]).answer (),
      { session with
        sink := session.sink.flush.2
        transcript := session.transcript.push (.flush session.parser.tokens) }) := by
  rw [flush, Sink.perform_flush]
  rcases session.sink.flush with ⟨_ | fault, rest⟩ <;> rfl

theorem flush_performs : Doing.Performs session [.flush] () session.flush := by
  have flushes := congrArg List.length (flushes_flush session)
  rw [List.length_append] at flushes
  rw [flush_eq] at flushes ⊢
  refine ⟨rfl, rfl, ?_, ?_, ?_⟩
  all_goals rw [Sink.perform_flush]
  · exact shown_push session _ (.flush session.parser.tokens)
  · exact flushes

theorem prompt_performs :
    Doing.Performs session (asks session.interactive) () session.prompt := by
  unfold prompt asks
  split
  · exact (write_performs session promptText).andThen fun asked _ => flush_performs asked
  · exact .idle session session rfl rfl rfl rfl ()

variable [TokenSource τ] {session} {next : Session τ} {rest : Parser τ} {result : ItemResult}

theorem proceed_performs (session : Session τ) (reply : Reply) :
    Doing.Performs session (asks session.interactive) () (session.proceed reply) := by
  cases reply with
  | parsed item => exact prompt_performs session
  | rejected error => exact (prompt_performs session.advance).of_resume

theorem parser_proceed (behind : session.parser = rest.withoutLog) :
    (session.proceed result.reply).2.parser = (result.onwards rest).withoutLog := by
  rcases result with ⟨kind, error | item⟩
  · refine (parser_prompt session.advance).trans ?_
    rw [parser_advance, behind]
    rfl
  · exact (parser_prompt session).trans behind

theorem start_performs (session : Session τ) :
    Doing.Performs session (asks session.interactive) () session.start := by
  rw [← List.append_nil (asks _)]
  exact (prompt_performs session).andThen fun asked _ =>
    .idle asked asked.advance rfl rfl (shown_resume _ _) (flushes_resume _ _) ()

theorem parser_start (started : session.start = (.ok (), next)) :
    next.parser = session.parser.advance.withoutLog := by
  obtain ⟨_, asked, prompted, read⟩ := Doing.andThen_eq_ok_iff.mp started
  cases read
  have same := parser_prompt session
  rw [prompted] at same
  rw [parser_advance, same]

/-- A turn that finds a result answers it and prompts. -/
theorem turn_performs (attempt : session.parser.item? = (some result, rest)) :
    Doing.Performs session (.write result.line :: asks session.interactive) (some result.reply)
      session.turn := by
  rw [turn_of_some attempt, ← List.append_nil (asks _)]
  refine .of_resume ((write_performs (session.resume rest) result.line).andThen ?_)
  intro answered wrote
  have asking : answered.interactive = session.interactive := by
    have same := interactive_write (session.resume rest) result.line
    rwa [wrote] at same
  rw [← asking]
  exact (proceed_performs answered result.reply).andThen fun ready _ =>
    .idle ready ready rfl rfl rfl rfl _

/-- A turn that answers nothing has found nothing more. -/
theorem exists_of_turn_none (turned : session.turn = (.ok none, next)) :
    ∃ rest, session.parser.item? = (none, rest) ∧ next = session.resume rest := by
  rcases attempt : session.parser.item? with ⟨_ | result, rest⟩
  · rw [turn_of_nothing attempt] at turned
    cases turned
    exact ⟨rest, rfl, rfl⟩
  · cases reply_of_turn attempt turned

/-- Behind a turn that answers a result, the parser reads on. -/
theorem parser_turn {reply? : Option Reply} (attempt : session.parser.item? = (some result, rest))
    (turned : session.turn = (.ok reply?, next)) :
    next.parser = (result.onwards rest).withoutLog := by
  rw [turn_of_some attempt] at turned
  obtain ⟨_, answered, wrote, turned⟩ := Doing.andThen_eq_ok_iff.mp turned
  obtain ⟨_, ready, proceeded, turned⟩ := Doing.andThen_eq_ok_iff.mp turned
  cases turned
  have behind := parser_write result.line (session.resume rest)
  rw [wrote] at behind
  have onwards := @parser_proceed _ answered _ rest result behind
  rwa [proceeded] at onwards

theorem takeTurns_eq (report : Report) (session : Session τ) :
    session.takeTurns report = session.turn.andThen fun reply? next =>
      match reply? with
      | none => (.ok report, next.record (.finished report.items.size report.errors.size))
      | some reply => next.takeTurns (report.add reply) := by
  rcases turned : session.turn with ⟨fault | reply | none, next⟩
  · exact takeTurns_of_error turned
  · exact takeTurns_of_none turned
  · exact takeTurns_of_some turned

theorem takeTurns_performs (report : Report) (settles : session.parser.Settles) :
    Doing.Performs session
      (session.parser.results.flatMap fun result => .write result.line :: asks session.interactive)
      ((session.parser.results.map (·.reply)).foldl .add report) (session.takeTurns report) := by
  generalize split : session.parser.results = results
  induction results generalizing session report with
  | nil =>
    obtain ⟨rest, attempt⟩ := Parser.exists_of_results_nil split
    rw [takeTurns_of_none (turn_of_nothing attempt)]
    apply Doing.Performs.idle session
    · rfl
    · rfl
    · rw [shown_record, shown_resume]
    · rw [flushes_record, flushes_resume]
  | cons result results ih =>
    obtain ⟨rest, attempt, behind⟩ := Parser.exists_of_results_cons split
    have performs := turn_performs attempt
    rw [takeTurns_eq, List.flatMap_cons]
    refine performs.andThen fun next turned => ?_
    have parser := parser_turn attempt turned
    have asking := performs.interactive
    rw [turned] at asking
    have onwards : (result.onwards rest).Settles := (settles.item? attempt).onwards result
    rw [← asking]
    apply ih
    · exact parser ▸ onwards.withoutLog
    · rw [parser, Parser.results_withoutLog onwards, behind]

/-- What a session shows and answers when it is run over a sink, what is left of the sink, and how
often it flushes. -/
structure Runs (session : Session τ) (sink : Sink) (results : List ItemResult)
    (outcome : Doing τ Report) : Prop where
  answer : outcome.1 = (sink.perform (script session.interactive (results.map (·.line)))).answer
    (Report.ofResults results)
  shown : outcome.2.shown =
    (sink.perform (script session.interactive (results.map (·.line)))).taken
  flushes : outcome.2.flushes.length =
    (sink.perform (script session.interactive (results.map (·.line)))).flushed

/-- Over any sink a session performs the script of its results. -/
theorem run_runs (sink : Sink) (session : Session τ) (settles : session.parser.advance.Settles) :
    session.Runs sink session.parser.advance.results (session.run sink) := by
  let begun : Session τ := { session with sink, transcript := #[] }
  have performs : Doing.Performs begun
      (script session.interactive (session.parser.advance.results.map (·.line)))
      (.ofResults session.parser.advance.results) (session.run sink) := by
    rw [script, List.flatMap_map]
    refine (start_performs begun).andThen fun first started => ?_
    have parser := parser_start started
    have asking : first.interactive = session.interactive := by
      have same := (start_performs begun).interactive
      rwa [started] at same
    have turns := takeTurns_performs .empty (parser ▸ settles.withoutLog)
    rw [parser, asking] at turns
    have same : begun.parser.advance.withoutLog.results = session.parser.advance.results :=
      Parser.results_withoutLog settles
    rwa [same] at turns
  exact ⟨performs.answer, performs.shown.trans String.empty_append,
    performs.flushes.trans (Nat.zero_add _)⟩

/-- Over any sink, sessions with the same results answer and show the same, and flush as often. -/
theorem run_congr {τ' : Type} [TokenSource τ'] {session : Session τ} {other : Session τ'}
    (sink : Sink) (interactive : other.interactive = session.interactive)
    (same : session.parser.advance.SameResults other.parser.advance) :
    (other.run sink).1 = (session.run sink).1 ∧
      (other.run sink).2.shown = (session.run sink).2.shown ∧
      (other.run sink).2.flushes.length = (session.run sink).2.flushes.length := by
  obtain ⟨answer, shown, flushes⟩ := run_runs sink session same.settles
  obtain ⟨answer', shown', flushes'⟩ := run_runs sink other same.otherSettles
  rw [interactive, same.results] at answer' shown' flushes'
  exact ⟨answer'.trans answer.symm, shown'.trans shown.symm, flushes'.trans flushes.symm⟩

end Session

end OpLang
