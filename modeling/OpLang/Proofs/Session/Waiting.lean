import OpLang.Proofs.Parser.Standing
import OpLang.Proofs.Session.Flushes
import OpLang.Proofs.Source.Consumption

/-! # Interactive input is not read ahead

When an interactive session flushes, it waits for whoever types. It has asked for nothing before the
first flush. At any other it has asked for the characters up to the end of the token at hand and for
the one behind them, which shows that the token does not go on; or for the end of input, if that is
at hand. So nothing behind a line is read before what the line completes has been reported.
-/

namespace OpLang

open Grammar

namespace Parser

variable {σ : Type} [CharSource σ] {source : σ} {finish : List Char} {segments : List Segment}
  {parser : Parser (Lexer σ)}

theorem Stands.endsForGood (stands : parser.Stands source finish segments) :
    parser.EndsForGood := by
  intro finished
  obtain rfl := stands.faces.eq_nil_iff.mpr finished
  have nothing := stands.faces.ahead_eq_nil
  exact TokenSource.ahead_of_finished (Lexer.next_of_blank (by rw [nothing]; simp))

/-- The token behind an error takes a segment with it, too, unless it is the end of input. -/
theorem Stands.advance_offender {error : ParseError}
    (stands : parser.Stands source finish segments) (offender : parser.here = error.offender) :
    ∃ front others, segments = front ++ others ∧ front.length = error.passed.length ∧
      parser.advance.Stands source finish others := by
  have same : error.offender.token = parser.current := congrArg (·.token) offender.symm
  have onwards := stands.advance
  rw [ParseError.passed, same]
  cases segments with
  | nil =>
    rw [if_pos (stands.faces.eq_nil_iff.mp rfl)]
    exact ⟨[], [], rfl, rfl, onwards⟩
  | cons segment segments =>
    have found : parser.current ≠ .endOfInput :=
      fun finished => List.cons_ne_nil _ _ (stands.faces.eq_nil_iff.mpr finished)
    rw [if_neg found]
    exact ⟨[segment], segments, rfl, rfl, onwards⟩

end Parser

namespace Session

variable {σ : Type} [CharSource σ] {source : σ} {finish : List Char} {segments : List Segment}
  {session next last : Session (Lexer σ)}

/-- An interactive session over a sink without limits, with these segments left. -/
structure Ready (source : σ) (finish : List Char) (segments : List Segment)
    (session : Session (Lexer σ)) : Prop where
  interactive : session.interactive = true
  unlimited : session.sink = .unlimited
  stands : session.parser.Stands source finish segments

/-- A session comes to another state: for each token that it passes it takes a segment, and it
flushes. -/
structure Steps (source : σ) (finish : List Char) (session : Session (Lexer σ))
    (segments : List Segment) (passed : List LocatedToken) (flushed : List (Flush (Lexer σ)))
    (next : Session (Lexer σ)) (others : List Segment) : Prop where
  taken : ∃ front, segments = front ++ others ∧ front.length = passed.length
  ready : next.Ready source finish others
  ahead : session.parser.ahead = passed ++ next.parser.ahead
  flushes : next.flushes = session.flushes ++ flushed

theorem Ready.refl (ready : session.Ready source finish segments) :
    session.Steps source finish segments [] [] session segments :=
  ⟨⟨[], rfl, rfl⟩, ready, rfl, (List.append_nil _).symm⟩

theorem Steps.trans {middle : Session (Lexer σ)} {between others : List Segment}
    {passed passed' : List LocatedToken} {flushed flushed' : List (Flush (Lexer σ))}
    (first : session.Steps source finish segments passed flushed middle between)
    (second : middle.Steps source finish between passed' flushed' last others) :
    session.Steps source finish segments (passed ++ passed') (flushed ++ flushed') last others := by
  obtain ⟨front, rfl, length⟩ := first.taken
  obtain ⟨front', rfl, length'⟩ := second.taken
  refine ⟨⟨front ++ front', (List.append_assoc _ _ _).symm, ?_⟩, second.ready, ?_, ?_⟩
  · rw [List.length_append, List.length_append, length, length']
  · rw [first.ahead, second.ahead, List.append_assoc]
  · rw [second.flushes, first.flushes, List.append_assoc]

end Session

variable {σ : Type} [CharSource σ] {settings : Settings} {source : σ} {finish : List Char}
  {segments : List Segment} {session next last : Session (Lexer σ)} {episode : Episode}
  {episodes : List Episode}

/-- A turn ends with a flush that shows where the next one begins. -/
theorem Turn.steps (turn : Turn settings session episode next)
    (ready : session.Ready source finish segments) :
    ∃ others, session.Steps source finish segments episode.tokens [next.point] next others := by
  obtain ⟨semicolons, tokens, reply⟩ := episode
  obtain ⟨turned, skips, _, piece, _⟩ := turn
  obtain ⟨interactive, flushes⟩ := Session.flushes_turn ready.interactive turned
  obtain ⟨front, behind, rfl, length, there⟩ := ready.stands.passes skips
  cases piece with
  | @parsed clause _ rest attempt passes =>
    obtain ⟨_, answered, parser, unlimited⟩ := Session.turn_of_ok session ready.unlimited attempt
    cases turned.symm.trans answered
    obtain ⟨front', others, rfl, length', stands⟩ := there.passes passes
    refine ⟨others, ⟨front ++ front', (List.append_assoc _ _ _).symm, ?_⟩,
      ⟨interactive, unlimited, parser ▸ stands.withoutLog⟩, ?_, flushes⟩
    · rw [List.length_append, length, length', Episode.tokens, List.length_append]
    · have same : next.parser.ahead = rest.ahead := congrArg (·.ahead) parser
      rw [skips.ahead_eq, passes.ahead_eq, same, Episode.tokens, List.append_assoc]
  | @rejected _ error consumed rest attempt passes offender =>
    obtain ⟨_, answered, parser, unlimited⟩ := Session.turn_of_error session ready.unlimited attempt
    cases turned.symm.trans answered
    obtain ⟨front', others', rfl, length', stands⟩ := there.passes passes
    obtain ⟨front'', others, rfl, length'', onwards⟩ := stands.advance_offender offender
    refine ⟨others, ⟨front ++ (front' ++ front''), by simp only [List.append_assoc], ?_⟩,
      ⟨interactive, unlimited, parser ▸ onwards.withoutLog⟩, ?_, flushes⟩
    · simp only [Episode.tokens, List.append_eq, List.length_append, length, length', length'']
    · have same : next.parser.ahead = rest.advance.ahead := congrArg (·.ahead) parser
      have left := Session.ahead_of_offender stands.endsForGood offender
      rw [skips.ahead_eq, passes.ahead_eq, left, same]
      simp only [Episode.tokens, List.append_eq, List.append_assoc]

/-- Turns flush once each, and the last flush shows where the turn behind them begins. -/
theorem Turns.steps (turns : Turns settings session episodes last)
    (ready : session.Ready source finish segments) :
    ∃ flushed others, session.Steps source finish segments (episodes.flatMap Episode.tokens) flushed
        last others ∧ flushed.length = episodes.length ∧
      (episodes ≠ [] → flushed.getLast? = some last.point) := by
  induction turns generalizing segments with
  | nil session => exact ⟨[], segments, ready.refl, rfl, fun filled => absurd rfl filled⟩
  | @cons session next last episode episodes turn turns ih =>
    obtain ⟨between, first⟩ := turn.steps ready
    obtain ⟨flushed, others, second, length, point⟩ := ih first.ready
    refine ⟨next.point :: flushed, others, first.trans second, congrArg (· + 1) length, ?_⟩
    intro _
    cases turns with
    | nil =>
      obtain rfl := List.length_eq_zero_iff.mp length
      rfl
    | cons =>
      obtain ⟨flush, more, rfl⟩ := List.exists_cons_of_length_eq_add_one length
      exact point (List.cons_ne_nil _ _)

theorem Turns.split {front behind : List Episode}
    (turns : Turns settings session (front ++ behind) last) :
    ∃ middle, Turns settings session front middle ∧ Turns settings middle behind last := by
  induction front generalizing session with
  | nil => exact ⟨session, .nil session, turns⟩
  | cons episode front ih =>
    cases turns with
    | cons turn onwards =>
      obtain ⟨middle, before, behind⟩ := ih onwards
      exact ⟨middle, .cons turn before, behind⟩

theorem Turns.takes (turns : Turns settings session episodes last) :
    Session.Takes session (episodes.map (·.reply)) last := by
  induction turns with
  | nil session => exact .nil session
  | cons turn _ ih => exact .cons turn.turned ih

namespace Session

/-- A fresh interactive session over a source of characters. -/
def interactiveOver {σ : Type} (settings : Settings) (source : σ) : Session (Lexer σ) :=
  { ofParser (.ofTokens (.ofSource source) settings) with interactive := true }

/-- What an interactive run over a sink without limits has read at its flushes. Before the first one
nothing has been read. At the flush behind some turns everything that they reply has been shown, the
token at hand is the first that belongs to none of them, and `holds` is true of its index, counted
from zero, and the source. -/
structure OnDemand {σ : Type} [CharSource σ] (settings : Settings) (source : σ)
    (cut : Segmentation) (holds : Nat → σ → Prop) (report : Report)
    (first last final : Session (Lexer σ)) (episodes : List Episode) : Prop where
  ran : (interactiveOver settings source).run .unlimited = (.ok report, final)
  started : (interactiveOver settings source).start = (.ok (), first)
  turns : Turns settings first episodes last
  ended : last.turn.1 = .ok none
  items : report.items.toList = (episodes.map (·.reply)).filterMap Reply.item?
  errors : report.errors.toList = (episodes.map (·.reply)).filterMap Reply.error?
  /-- There is a flush before the first turn and one behind each. -/
  count : final.flushes.length = episodes.length + 1
  untouched : final.flushes.head?.map (·.tokens) = some (Lexer.ofSource source)
  waits : ∀ front behind, episodes = front ++ behind → front ≠ [] → ∃ middle,
    let passed := front.flatMap Episode.tokens
    Turns settings first front middle ∧ Turns settings middle behind last ∧
      final.flushes[front.length]? = some middle.point ∧
      TokenSource.ahead (Lexer.ofSource source) = passed ++ middle.parser.ahead ∧
      middle.parser.current = (cut.segments[passed.length]?.map (·.token)).getD .endOfInput ∧
      holds passed.length middle.parser.tokens.source

theorem OnDemand.mono {cut : Segmentation} {holds holds' : Nat → σ → Prop} {report : Report}
    {first last final : Session (Lexer σ)}
    (onDemand : OnDemand settings source cut holds report first last final episodes)
    (weaker : ∀ index rest, holds index rest → holds' index rest) :
    OnDemand settings source cut holds' report first last final episodes where
  ran := onDemand.ran
  started := onDemand.started
  turns := onDemand.turns
  ended := onDemand.ended
  items := onDemand.items
  errors := onDemand.errors
  count := onDemand.count
  untouched := onDemand.untouched
  waits front behind split filled := by
    obtain ⟨middle, before, onwards, flushed, ahead, current, held⟩ :=
      onDemand.waits front behind split filled
    exact ⟨middle, before, onwards, flushed, ahead, current, weaker _ _ held⟩

/-- Whatever the source, a run has asked at each flush exactly for what it needs. -/
theorem exists_onDemand (settings : Settings) (source : σ) :
    ∃ cut : Segmentation, cut.Cuts (CharSource.ahead source) ∧
      ∃ report first last final episodes, OnDemand settings source cut
        (fun index rest => rest = CharSource.after (cut.reach index + 1) source)
        report first last final episodes := by
  obtain ⟨segments, finish, cuts⟩ := exists_segmented (CharSource.ahead source)
  have unlimited : (interactiveOver settings source).sink = .unlimited := rfl
  obtain ⟨first, started, parser, sink⟩ := start_succeeds _ unlimited
  obtain ⟨interactive, received, begun⟩ := flushes_start rfl started
  have read : first.parser = (Parser.ofTokens (.ofSource source) settings).advance.withoutLog :=
    parser
  have ready : first.Ready source finish segments :=
    ⟨interactive, sink, read ▸ (Parser.stands_start settings cuts).withoutLog⟩
  have known : first.parser.settings = settings := congrArg (·.settings) read
  have ahead : first.parser.ahead = TokenSource.ahead (Lexer.ofSource source) :=
    (congrArg (·.ahead) read).trans (Parser.ahead_advance _)
  obtain ⟨episodes, last, final, turns, ended, answer, _, _⟩ :=
    takeTurns_turns .empty sink known ready.stands.endsForGood
  have flushes : final.flushes = last.flushes := by
    have turned : last.turn = (.ok none, last.turn.2) := Prod.ext ended rfl
    rw [takeTurns_of_takes turns.takes, takeTurns_of_none turned] at answer
    obtain ⟨_, rfl⟩ := Prod.mk.inj answer
    rw [flushes_record, flushes_turn_of_none turned]
  refine ⟨⟨segments, finish⟩, cuts, _, first, last, final, episodes, ?_, started, turns, ended,
    Report.items_foldl_add _ .empty, Report.errors_foldl_add _ .empty, ?_, ?_, ?_⟩
  · exact Doing.andThen_eq_ok_iff.mpr ⟨(), first, started, answer⟩
  · obtain ⟨flushed, _, steps, length, _⟩ := turns.steps ready
    rw [flushes, steps.flushes, begun, List.length_append, length]
    exact Nat.add_comm _ _
  · obtain ⟨_, _, steps, _⟩ := turns.steps ready
    rw [flushes, steps.flushes, begun]
    rfl
  · rintro front behind rfl filled
    obtain ⟨middle, before, onwards⟩ := turns.split
    obtain ⟨flushed, others, steps, length, point⟩ := before.steps ready
    obtain ⟨flushed', _, steps', _⟩ := onwards.steps steps.ready
    obtain ⟨taken, whole, count⟩ := steps.taken
    have stands := steps.ready.stands
    refine ⟨middle, before, onwards, ?_, ahead.symm.trans steps.ahead, ?_, ?_⟩
    · obtain ⟨more, rfl⟩ := List.getLast?_eq_some_iff.mp (point filled)
      have none : (interactiveOver settings source).flushes = [] := rfl
      rw [flushes, steps'.flushes, steps.flushes, begun, none, ← length, List.length_append]
      simp
    · rw [← count]
      dsimp only
      rw [whole, List.getElem?_append_right (Nat.le_refl _), Nat.sub_self,
        ← List.head?_eq_getElem?]
      exact stands.faces.current_eq
    · rw [← count]
      exact @Lexer.Faces.source_eq _ _ _ _ _ ⟨segments, finish⟩ _ _ stands.faces stands.draws cuts
        whole

/-- An interactive session reads no further than it has to. At each flush but the first, the number
of characters that it has asked for is one more than reaches to the end of the token at hand, or to
the end of the text. Of a reader whose answers are steady it has then consumed the lines up to the
one with the last of these characters; so if the token stands in a line that ends with a newline,
nothing behind that line. -/
theorem reads_on_demand (settings : Settings) :
    (∀ text : String, ∃ cut : Segmentation, cut.Cuts text.toList ∧
      ∃ report first last final episodes,
        OnDemand settings (Metered.ofSource text.toList) cut
          (fun index metered => metered.pulled = cut.reach index + 1)
          report first last final episodes) ∧
    ∀ script : List Fill, (∀ fill ∈ script, fill.Steady) →
      ∃ cut : Segmentation, cut.Cuts (Utf8.decode (Fill.delivered script)) ∧
        ∃ report first last final episodes,
          OnDemand settings (LineReader.ofScript script) cut
            (fun index reader =>
              reader = (LineReader.ofScript script).after (cut.reach index + 1) ∧
              Costs (Fill.delivered script) (cut.reach index + 1) reader.consumed ∧
              (index < cut.segments.length →
                KeepsToLine (Fill.delivered script) (cut.reach index) reader.consumed))
            report first last final episodes := by
  constructor
  · intro text
    obtain ⟨cut, cuts, report, first, last, final, episodes, onDemand⟩ :=
      exists_onDemand settings (Metered.ofSource text.toList)
    have ahead : CharSource.ahead (Metered.ofSource text.toList) = text.toList :=
      (Metered.ahead_eq _).trans (CharSource.ahead_list _)
    refine ⟨cut, ahead ▸ cuts, report, first, last, final, episodes, onDemand.mono ?_⟩
    rintro index _ rfl
    exact Metered.pulled_after _ _
  · intro script steady
    obtain ⟨cut, cuts, report, first, last, final, episodes, onDemand⟩ :=
      exists_onDemand settings (LineReader.ofScript script)
    have answers (calls : Nat) := LineReader.answer_after calls 0 [] script
    have ahead : CharSource.ahead (LineReader.ofScript script) =
        Utf8.decode (Fill.delivered script) :=
      (LineReader.ahead_eq_of_answers answers).trans (decode_delivered steady []).symm
    rw [ahead] at cuts
    refine ⟨cut, cuts, report, first, last, final, episodes, onDemand.mono ?_⟩
    rintro index _ rfl
    have costs := LineReader.costs_after steady (cut.reach index)
    refine ⟨rfl, costs, ?_⟩
    intro inside
    obtain ⟨passed, others, decoded, length, other⟩ := Segmentation.exists_reach cuts inside
    rw [← length] at costs ⊢
    exact costs.keepsToLine decoded other

/-- The first line comes in two answers, and the second one begins with its end. -/
theorem reads_on_demand_of_lines :
    let script : List Fill :=
      [.bytes [0x31, 0x3B], .interrupted, .bytes [0x0A, 0x32, 0x3B], .bytes [0x0A]]
    (∀ fill ∈ script, fill.Steady) ∧ Utf8.decode (Fill.delivered script) = "1;\n2;\n".toList ∧
      ∃ cut : Segmentation, cut.Cuts "1;\n2;\n".toList ∧
        ∃ report first last final episodes,
          OnDemand .standard (LineReader.ofScript script) cut
            (fun index reader =>
              Costs (Fill.delivered script) (cut.reach index + 1) reader.consumed)
            report first last final episodes := by
  intro script
  have steady : ∀ fill ∈ script, fill.Steady := by
    simp [script, Fill.Steady]
  have decoded : Utf8.decode (Fill.delivered script) = "1;\n2;\n".toList := by decide +kernel
  obtain ⟨cut, cuts, report, first, last, final, episodes, onDemand⟩ :=
    (reads_on_demand .standard).2 script steady
  rw [decoded] at cuts
  refine ⟨steady, decoded, cut, cuts, report, first, last, final, episodes, onDemand.mono ?_⟩
  exact fun _ _ held => held.2.1

end Session

end OpLang
