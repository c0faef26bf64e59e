import OpLang.Proofs.Parser.Results
import OpLang.Proofs.Session.Accounting

/-! # What sessions make of results

A session answers the results of its input one after the other, and nothing else about its parser
matters: sessions whose parsers have the same results show the same output and report the same, even
where the sink refuses at last. Over a sink without limits every result is answered.
-/

namespace OpLang

/-- What a session replies to a result. -/
def ItemResult.reply (result : ItemResult) : Reply :=
  match result.result with
  | .ok item => .parsed item
  | .error error => .rejected error

/-- The line that a session answers a result with. -/
def ItemResult.line (result : ItemResult) : String :=
  match result.result with
  | .ok _ => Session.announcement result.kind
  | .error error => Session.complaint error

/-- What a session reports of results. -/
def Report.ofResults (results : List ItemResult) : Report :=
  (results.map (·.reply)).foldl add .empty

theorem Report.items_ofResults (results : List ItemResult) :
    (Report.ofResults results).items.toList =
      (results.map (·.reply)).filterMap Reply.item? :=
  items_foldl_add _ .empty

theorem Report.errors_ofResults (results : List ItemResult) :
    (Report.ofResults results).errors.toList =
      (results.map (·.reply)).filterMap Reply.error? :=
  errors_foldl_add _ .empty

namespace Transcript

variable {τ : Type}

theorem output_append (first second : List (Entry τ)) :
    output (first ++ second) = output first ++ output second := by
  rw [output, List.filterMap_append, String.join_append, output, output]

/-- Log records are no output. -/
theorem output_events (events : List Event) :
    output (events.map (Entry.event : Event → Entry τ)) = "" := by
  rw [output, List.filterMap_map]
  induction events with
  | nil => rfl
  | cons _ _ ih => exact ih

end Transcript

namespace Parser

variable {τ : Type} [TokenSource τ] {parser : Parser τ}

theorem Settles.withoutLog (settles : parser.Settles) : parser.withoutLog.Settles :=
  settles.log #[]

theorem results_withoutLog (settles : parser.Settles) :
    parser.withoutLog.results = parser.results :=
  results_congr settles (funext fun call => by cases call <;> rfl) rfl

end Parser

theorem Doing.andThen_assoc {τ α β γ : Type} (doing : Doing τ α) (next : α → Session τ → Doing τ β)
    (last : β → Session τ → Doing τ γ) : (doing.andThen next).andThen last =
      doing.andThen fun value session => (next value session).andThen last := by
  rcases doing with ⟨_ | _, _⟩ <;> rfl

namespace Session

variable {τ τ' α β : Type}

/-- The output of a session since it was last run. -/
def shown (session : Session τ) : String := Transcript.output session.transcript.toList

theorem shown_push (session : Session τ) (sink : Sink) (entry : Entry τ) :
    ({ session with sink, transcript := session.transcript.push entry } : Session τ).shown =
      session.shown ++ Transcript.output [entry] := by
  simp only [shown, Array.toList_push, Transcript.output_append]

@[simp] theorem shown_resume (session : Session τ) (parser : Parser τ) :
    (session.resume parser).shown = session.shown := by
  simp only [shown, resume, Array.toList_append, Array.toList_map, Transcript.output_append,
    Transcript.output_events, String.append_empty]

@[simp] theorem shown_record (session : Session τ) (event : Event) :
    (session.record event).shown = session.shown :=
  (shown_push session session.sink (.event event)).trans String.append_empty

variable [TokenSource τ] [TokenSource τ'] {session next : Session τ} {other : Session τ'}
  {rest : Parser τ} {result : ItemResult}

/-- A turn that finds nothing more. -/
theorem turn_of_nothing (attempt : session.parser.item? = (none, rest)) :
    session.turn = (.ok none, session.resume rest) := by
  rw [turn, answer, attempt]
  rfl

/-- A turn that answers a result, whatever the sink does. -/
theorem turn_of_some (attempt : session.parser.item? = (some result, rest)) :
    session.turn = ((session.resume rest).write result.line).andThen fun _ answered =>
      (answered.proceed result.reply).andThen fun _ next => (.ok (some result.reply), next) := by
  rw [turn, answer, attempt]
  rcases result with ⟨kind, error | item⟩
  · exact Doing.andThen_assoc _ _ _
  · exact Doing.andThen_assoc _ _ _

/-- A turn that finds a result replies with it. -/
theorem reply_of_turn {reply? : Option Reply} (attempt : session.parser.item? = (some result, rest))
    (turned : session.turn = (.ok reply?, next)) : reply? = some result.reply := by
  rw [turn_of_some attempt] at turned
  obtain ⟨_, answered, _, proceeds⟩ := Doing.andThen_eq_ok_iff.mp turned
  obtain ⟨_, ready, _, replies⟩ := Doing.andThen_eq_ok_iff.mp proceeds
  cases replies
  rfl

theorem takeTurns_of_none {report : Report} (turned : session.turn = (.ok none, next)) :
    session.takeTurns report =
      (.ok report, next.record (.finished report.items.size report.errors.size)) := by
  rw [takeTurns]
  split <;> simp_all

theorem takeTurns_of_some {report : Report} {reply : Reply}
    (turned : session.turn = (.ok (some reply), next)) :
    session.takeTurns report = next.takeTurns (report.add reply) := by
  conv => lhs; rw [takeTurns]
  split <;> simp_all

theorem takeTurns_of_error {report : Report} {fault : SinkFault}
    (turned : session.turn = (.error fault, next)) :
    session.takeTurns report = (.error fault, next) := by
  rw [takeTurns]
  split <;> simp_all

end Session

/-! ### Sessions with the same results -/

theorem Parser.SameResults.withoutLog {τ τ' : Type} [TokenSource τ] [TokenSource τ']
    {parser : Parser τ} {other : Parser τ'} (same : parser.SameResults other) :
    parser.withoutLog.SameResults other.withoutLog where
  settles := same.settles.withoutLog
  otherSettles := same.otherSettles.withoutLog
  results := by
    rw [results_withoutLog same.settles, results_withoutLog same.otherSettles, same.results]

/-- Sessions that look the same from outside. -/
structure Session.ShowsAs {τ τ' : Type} (session : Session τ) (other : Session τ') : Prop where
  interactive : other.interactive = session.interactive
  sink : other.sink = session.sink
  shown : other.shown = session.shown

/-- Sessions that do the same look the same afterwards, and after a success their parsers are
related. -/
inductive Doing.ShowsAs {τ τ' α : Type} (parsers : Parser τ → Parser τ' → Prop) :
    Doing τ α → Doing τ' α → Prop where
  | ok {next : Session τ} {other : Session τ'} (value : α) (shows : next.ShowsAs other)
    (related : parsers next.parser other.parser) :
    ShowsAs parsers (.ok value, next) (.ok value, other)
  | error {next : Session τ} {other : Session τ'} (fault : SinkFault) (shows : next.ShowsAs other) :
    ShowsAs parsers (.error fault, next) (.error fault, other)

namespace Doing.ShowsAs

variable {τ τ' α β : Type} {parsers behind : Parser τ → Parser τ' → Prop} {doing : Doing τ α}
  {other : Doing τ' α}

theorem andThen {next : α → Session τ → Doing τ β} {next' : α → Session τ' → Doing τ' β}
    (first : doing.ShowsAs parsers other)
    (onwards : ∀ value session session', Session.ShowsAs session session' →
      parsers session.parser session'.parser →
        (next value session).ShowsAs behind (next' value session')) :
    (doing.andThen next).ShowsAs behind (other.andThen next') := by
  cases first with
  | ok value shows related => exact onwards value _ _ shows related
  | error fault shows => exact .error fault shows

theorem mono (same : doing.ShowsAs parsers other)
    (weaker : ∀ first second, parsers first second → behind first second) :
    doing.ShowsAs behind other := by
  cases same with
  | ok value shows related => exact .ok value shows (weaker _ _ related)
  | error fault shows => exact .error fault shows

theorem of_ok {value : α} {next : Session τ}
    (same : ShowsAs parsers (.ok value, next) other) :
    ∃ next', other = (.ok value, next') ∧ next.ShowsAs next' ∧
      parsers next.parser next'.parser := by
  cases same with
  | ok _ shows related => exact ⟨_, rfl, shows, related⟩

theorem of_error {fault : SinkFault} {next : Session τ}
    (same : ShowsAs parsers (.error fault, next) other) :
    ∃ next', other = (.error fault, next') ∧ next.ShowsAs next' := by
  cases same with
  | error _ shows => exact ⟨_, rfl, shows⟩

theorem eq (same : doing.ShowsAs parsers other) :
    other.1 = doing.1 ∧ other.2.shown = doing.2.shown := by
  cases same with
  | ok value shows => exact ⟨rfl, shows.shown⟩
  | error fault shows => exact ⟨rfl, shows.shown⟩

end Doing.ShowsAs

namespace Session

variable {τ τ' : Type} {session : Session τ} {other : Session τ'}

/-- The parsers are those of two sessions. -/
def Parsers (session : Session τ) (other : Session τ') (first : Parser τ) (second : Parser τ') :
    Prop :=
  first = session.parser ∧ second = other.parser

theorem ShowsAs.resume (shows : session.ShowsAs other) (parser : Parser τ) (parser' : Parser τ') :
    (session.resume parser).ShowsAs (other.resume parser') where
  interactive := shows.interactive
  sink := shows.sink
  shown := by rw [shown_resume, shown_resume, shows.shown]

theorem ShowsAs.write (shows : session.ShowsAs other) (text : String) :
    (session.write text).ShowsAs (session.Parsers other) (other.write text) := by
  unfold Session.write
  rw [shows.sink]
  obtain ⟨taken, fault?, sink⟩ := session.sink.write text
  have written : Session.ShowsAs
      { session with sink, transcript := session.transcript.push (.output taken) }
      { other with sink, transcript := other.transcript.push (.output taken) } := by
    refine ⟨shows.interactive, rfl, ?_⟩
    rw [shown_push, shown_push, shows.shown]
    rfl
  cases fault? with
  | none => exact .ok () written ⟨rfl, rfl⟩
  | some fault => exact .error fault written

theorem ShowsAs.flush (shows : session.ShowsAs other) :
    session.flush.ShowsAs (session.Parsers other) other.flush := by
  unfold Session.flush
  rw [shows.sink]
  obtain ⟨fault?, sink⟩ := session.sink.flush
  have flushed : Session.ShowsAs
      { session with
        sink, transcript := session.transcript.push (.flush session.parser.tokens) }
      { other with sink, transcript := other.transcript.push (.flush other.parser.tokens) } := by
    refine ⟨shows.interactive, rfl, ?_⟩
    rw [shown_push, shown_push, shows.shown]
    rfl
  cases fault? with
  | none => exact .ok () flushed ⟨rfl, rfl⟩
  | some fault => exact .error fault flushed

theorem ShowsAs.prompt (shows : session.ShowsAs other) :
    session.prompt.ShowsAs (session.Parsers other) other.prompt := by
  unfold Session.prompt
  rw [shows.interactive]
  split
  · refine (shows.write promptText).andThen fun _ _ _ shows written => ?_
    exact shows.flush.mono fun _ _ flushed =>
      ⟨flushed.1.trans written.1, flushed.2.trans written.2⟩
  · exact .ok () shows ⟨rfl, rfl⟩

variable [TokenSource τ] [TokenSource τ']

/-- Getting ready for the next item leaves parsers that read on with the same results. -/
theorem proceed_showsAs {rest : Parser τ} {rest' : Parser τ'} {result : ItemResult}
    (shows : session.ShowsAs other) (behind : session.parser = rest.withoutLog)
    (behind' : other.parser = rest'.withoutLog)
    (same : (result.onwards rest).SameResults (result.onwards rest')) :
    (session.proceed result.reply).ShowsAs Parser.SameResults (other.proceed result.reply) := by
  rcases result with ⟨kind, error | item⟩
  · refine (shows.resume session.parser.advance other.parser.advance).prompt.mono ?_
    rintro _ _ ⟨rfl, rfl⟩
    rw [behind, behind']
    exact same.withoutLog
  · refine shows.prompt.mono ?_
    rintro _ _ ⟨rfl, rfl⟩
    rw [behind, behind']
    exact same.withoutLog

/-- Turns of sessions with the same results answer in the same way. -/
theorem turn_showsAs (shows : session.ShowsAs other)
    (same : session.parser.SameResults other.parser) :
    session.turn.ShowsAs Parser.SameResults other.turn := by
  rcases same.item? with ⟨rest, rest', attempt, attempt', ended⟩ |
    ⟨result, rest, rest', attempt, attempt', behind⟩
  · rw [turn_of_nothing attempt, turn_of_nothing attempt']
    exact .ok none (shows.resume rest rest') ended.withoutLog
  · rw [turn_of_some attempt, turn_of_some attempt']
    refine ((shows.resume rest rest').write result.line).andThen fun _ _ _ shows parsers => ?_
    refine (proceed_showsAs shows parsers.1 parsers.2 behind).andThen fun _ _ _ shows same => ?_
    exact .ok _ shows same

theorem takeTurns_showsAs (report : Report) (shows : session.ShowsAs other)
    (same : session.parser.SameResults other.parser) :
    (session.takeTurns report).ShowsAs (fun _ _ => True) (other.takeTurns report) := by
  fun_induction takeTurns report session generalizing other with
  | case1 report session next turned =>
    have turns := turn_showsAs shows same
    rw [turned] at turns
    obtain ⟨next', turned', shows, _⟩ := turns.of_ok
    rw [takeTurns_of_none turned']
    exact .ok report ⟨shows.interactive, shows.sink, by simpa using shows.shown⟩ trivial
  | case2 report session reply next turned ih =>
    have turns := turn_showsAs shows same
    rw [turned] at turns
    obtain ⟨next', turned', shows, same⟩ := turns.of_ok
    rw [takeTurns_of_some turned']
    exact ih shows same
  | case3 report session fault next turned =>
    have turns := turn_showsAs shows same
    rw [turned] at turns
    obtain ⟨next', turned', shows⟩ := turns.of_error
    rw [takeTurns_of_error turned']
    exact .error fault shows

theorem parser_advance (session : Session τ) :
    session.advance.parser = session.parser.advance.withoutLog := rfl

theorem start_showsAs (shows : session.ShowsAs other)
    (same : session.parser.advance.SameResults other.parser.advance) :
    session.start.ShowsAs Parser.SameResults other.start := by
  refine shows.prompt.andThen fun _ _ _ shows parsers => .ok () (shows.resume _ _) ?_
  rw [parser_advance, parser_advance, parsers.1, parsers.2]
  exact same.withoutLog

/-- Over any sink, sessions with the same results show the same and report the same. -/
theorem run_showsAs (sink : Sink) (interactive : other.interactive = session.interactive)
    (same : session.parser.advance.SameResults other.parser.advance) :
    (session.run sink).ShowsAs (fun _ _ => True) (other.run sink) := by
  have fresh : Session.ShowsAs ({ session with sink, transcript := #[] } : Session τ)
      ({ other with sink, transcript := #[] } : Session τ') := ⟨interactive, rfl, rfl⟩
  refine (start_showsAs fresh same).andThen fun _ _ _ shows same => ?_
  exact takeTurns_showsAs .empty shows same

end Session

/-! ### Sessions over a sink without limits -/

namespace Session

variable {τ : Type} {session next last : Session τ}

/-- What a session shows before it reads anything and after every answer. -/
def prompts (interactive : Bool) : String := if interactive then promptText else ""

/-- A session has shown some text more, and its sink has no limits. -/
structure Adds (session : Session τ) (text : String) (next : Session τ) : Prop where
  sink : next.sink = .unlimited
  interactive : next.interactive = session.interactive
  shown : next.shown = session.shown ++ text

theorem Adds.trans {text text' : String} (first : session.Adds text next)
    (second : next.Adds text' last) : session.Adds (text ++ text') last where
  sink := second.sink
  interactive := second.interactive.trans first.interactive
  shown := by rw [second.shown, first.shown, String.append_assoc]

theorem Adds.of_resume {text : String} {parser : Parser τ}
    (added : (session.resume parser).Adds text next) : session.Adds text next where
  sink := added.sink
  interactive := added.interactive
  shown := by rw [added.shown, shown_resume]

theorem write_adds (session : Session τ) (unlimited : session.sink = .unlimited) (text : String) :
    ∃ next, session.write text = (.ok (), next) ∧ next.parser = session.parser ∧
      session.Adds text next := by
  unfold write
  rw [unlimited]
  exact ⟨_, rfl, rfl, rfl, rfl, shown_push session _ (.output text)⟩

theorem flush_adds (session : Session τ) (unlimited : session.sink = .unlimited) :
    ∃ next, session.flush = (.ok (), next) ∧ next.parser = session.parser ∧
      session.Adds "" next := by
  unfold flush
  rw [unlimited]
  exact ⟨_, rfl, rfl, rfl, rfl, shown_push session _ (.flush session.parser.tokens)⟩

theorem prompt_adds (session : Session τ) (unlimited : session.sink = .unlimited) :
    ∃ next, session.prompt = (.ok (), next) ∧ next.parser = session.parser ∧
      session.Adds (prompts session.interactive) next := by
  unfold prompt prompts
  split
  · obtain ⟨asked, wrote, parser, added⟩ := write_adds session unlimited promptText
    obtain ⟨next, flushed, parser', added'⟩ := flush_adds asked added.sink
    refine ⟨next, ?_, parser'.trans parser, ?_⟩
    · rw [wrote]
      exact flushed
    · rw [← String.append_empty (s := promptText)]
      exact added.trans added'
  · exact ⟨session, rfl, rfl, unlimited, rfl, String.append_empty.symm⟩

variable [TokenSource τ] {rest : Parser τ} {result : ItemResult}

/-- A session takes turns that answer, one after the other. -/
inductive Takes : Session τ → List Reply → Session τ → Prop where
  | nil (session : Session τ) : Takes session [] session
  | cons {session next last : Session τ} {reply : Reply} {replies : List Reply}
    (turned : session.turn = (.ok (some reply), next)) (others : Takes next replies last) :
    Takes session (reply :: replies) last

theorem Takes.split {replies others : List Reply} (takes : Takes session (replies ++ others) last) :
    ∃ middle, Takes session replies middle ∧ Takes middle others last := by
  induction replies generalizing session with
  | nil => exact ⟨session, .nil session, takes⟩
  | cons reply replies ih =>
    cases takes with
    | cons turned onwards =>
      obtain ⟨middle, front, behind⟩ := ih onwards
      exact ⟨middle, .cons turned front, behind⟩

theorem takeTurns_of_takes {replies : List Reply} (takes : Takes session replies last)
    (report : Report) : session.takeTurns report = last.takeTurns (replies.foldl .add report) := by
  induction takes generalizing report with
  | nil => rfl
  | cons turned _ ih => rw [takeTurns_of_some turned, ih, List.foldl_cons]

theorem proceed_adds (session : Session τ) (result : ItemResult)
    (unlimited : session.sink = .unlimited)
    (behind : session.parser = rest.withoutLog) :
    ∃ next, session.proceed result.reply = (.ok (), next) ∧
      next.parser = (result.onwards rest).withoutLog ∧
      session.Adds (prompts session.interactive) next := by
  rcases result with ⟨kind, error | item⟩
  · obtain ⟨next, asked, parser, added⟩ := prompt_adds session.advance unlimited
    refine ⟨next, asked, parser.trans ?_, added.of_resume⟩
    rw [parser_advance, behind]
    rfl
  · obtain ⟨next, asked, parser, added⟩ := prompt_adds session unlimited
    exact ⟨next, asked, parser.trans behind, added⟩

theorem turn_adds (session : Session τ) (unlimited : session.sink = .unlimited)
    (attempt : session.parser.item? = (some result, rest)) :
    ∃ next, session.turn = (.ok (some result.reply), next) ∧
      next.parser = (result.onwards rest).withoutLog ∧
      session.Adds (result.line ++ prompts session.interactive) next := by
  obtain ⟨answered, wrote, parser, added⟩ :=
    write_adds (session.resume rest) unlimited result.line
  obtain ⟨next, proceeded, behind, added'⟩ := proceed_adds answered result added.sink parser
  refine ⟨next, ?_, behind, ?_⟩
  · rw [turn_of_some attempt, wrote, Doing.andThen, proceeded, Doing.andThen]
  · rw [added.interactive] at added'
    exact added.of_resume.trans added'

theorem start_adds (session : Session τ) (unlimited : session.sink = .unlimited) :
    ∃ next, session.start = (.ok (), next) ∧ next.parser = session.parser.advance.withoutLog ∧
      session.Adds (prompts session.interactive) next := by
  obtain ⟨asked, prompted, parser, added⟩ := prompt_adds session unlimited
  refine ⟨asked.advance, ?_, ?_, ?_⟩
  · rw [start, prompted]
    rfl
  · rw [parser_advance, parser]
  · exact ⟨added.sink, added.interactive, (shown_resume _ _).trans added.shown⟩

/-- Every result is answered. -/
theorem exists_takes (unlimited : session.sink = .unlimited) (settles : session.parser.Settles) :
    ∃ last final, Takes session (session.parser.results.map (·.reply)) last ∧
      last.turn = (.ok none, final) ∧ final.shown = session.shown ++
        String.join (session.parser.results.map fun result =>
          result.line ++ prompts session.interactive) := by
  generalize split : session.parser.results = results
  induction results generalizing session with
  | nil =>
    obtain ⟨rest, attempt⟩ := Parser.exists_of_results_nil split
    refine ⟨session, _, .nil session, turn_of_nothing attempt, ?_⟩
    rw [shown_resume]
    exact String.append_empty.symm
  | cons result results ih =>
    obtain ⟨rest, attempt, behind⟩ := Parser.exists_of_results_cons split
    obtain ⟨next, turned, parser, added⟩ := turn_adds session unlimited attempt
    have onwards : (result.onwards rest).Settles := (settles.item? attempt).onwards result
    obtain ⟨last, final, takes, ended, shown⟩ := ih added.sink (parser ▸ onwards.withoutLog)
      (by rw [parser, Parser.results_withoutLog onwards, behind])
    refine ⟨last, final, .cons turned takes, ended, ?_⟩
    rw [shown, added.shown, added.interactive, List.map_cons, String.join_cons,
      String.append_assoc]

/-- A session over a text. -/
def ofText (settings : Settings) (text : String) (interactive : Bool) :
    Session (Lexer (List Char)) :=
  { ofParser (parserOfText settings text) with interactive }

/-- Over a sink without limits a session answers every result of its text and reports them all. -/
theorem run_ofText (settings : Settings) (text : String) (interactive : Bool) :
    ∃ first last final, (ofText settings text interactive).start = (.ok (), first) ∧
      Takes first ((resultsOfText settings text).map (·.reply)) last ∧ last.turn.1 = .ok none ∧
      (ofText settings text interactive).run .unlimited =
        (.ok (.ofResults (resultsOfText settings text)), final) ∧
      final.shown = prompts interactive ++
        String.join ((resultsOfText settings text).map fun result =>
          result.line ++ prompts interactive) := by
  have settles := Parser.settles_parserOfText settings text
  obtain ⟨first, started, behind, added⟩ := start_adds (ofText settings text interactive) rfl
  have read : first.parser = (parserOfText settings text).advance.withoutLog := behind
  obtain ⟨last, final, takes, ended, shown⟩ := exists_takes added.sink (read ▸ settles.withoutLog)
  rw [read, Parser.results_withoutLog settles] at takes shown
  let report := Report.ofResults (resultsOfText settings text)
  have answer : first.takeTurns .empty =
      (.ok report, final.record (.finished report.items.size report.errors.size)) := by
    rw [takeTurns_of_takes takes, takeTurns_of_none ended]
    rfl
  refine ⟨first, last, _, started, takes, congrArg (·.1) ended,
    Doing.andThen_eq_ok_iff.mpr ⟨(), first, started, answer⟩, ?_⟩
  rw [shown_record, shown, added.interactive, added.shown]
  rfl

end Session

end OpLang
