import OpLang.Proofs.Session.Limits
import OpLang.Proofs.Session.Soundness

/-! # The output tells the report

Each episode of a session has a line: the announcement of the kind that its first token opens, or
the complaint about its error. The output is these lines in their order, and an interactive session
puts prompts around them and does nothing else differently. The items of the report are what has
been announced, each of the kind that its line names, and the errors are what has been complained
about.
-/

namespace OpLang

open Grammar

/-- The kind of the item that a token opens. -/
def Token.itemKind : Token → ItemKind
  | .define => .definition
  | .declare => .declaration
  | .endOfInput | .name _ | .number _ | .symbol _ => .expression

/-- The kind of an item, as its shape shows it. -/
def Item.kind : Item → ItemKind
  | .declaration _ => .declaration
  | .function defined => if defined.isAnonymous then .expression else .definition

/-- The kind of item that the first token of an episode opens. -/
def Episode.kind (episode : Episode) : ItemKind :=
  (episode.piece.head?.map (·.token.itemKind)).getD .expression

/-- The line that announces an item of a kind. -/
def ItemKind.line : ItemKind → String
  | .definition => "Parsed a function definition.\n"
  | .declaration => "Parsed an extern\n"
  | .expression => "Parsed a top-level expression\n"

/-- The line that answers an episode. -/
def Episode.line (episode : Episode) : String :=
  match episode.reply with
  | .parsed _ => episode.kind.line
  | .rejected error => "Error: " ++ error.text ++ "\n"

theorem Session.announcement_eq (kind : ItemKind) : announcement kind = kind.line := by
  cases kind <;> rfl

/-- A clause begins with a token that opens its kind. -/
theorem Grammar.Clause.itemKind_head (clause : Clause) :
    (clause.tokens.head?.map Token.itemKind).getD .expression = clause.kind := by
  cases clause with
  | definition prototype body => rfl
  | declaration prototype => rfl
  | expression body =>
    obtain ⟨token, others, tokens, opens⟩ := body.tokens_eq_cons
    rw [Clause.tokens, tokens]
    cases token with
    | name _ | number _ | symbol _ => rfl
    | endOfInput | define | declare => exact absurd opens (by simp [Opens])

/-- A sound item has the shape of its kind. -/
theorem Item.Sound.kind_eq {settings : Settings} {kind : ItemKind} {item : Item}
    (sound : item.Sound settings kind) : item.kind = kind := by
  cases item with
  | declaration prototype => exact (sound.declares.mpr ⟨prototype, rfl⟩).symm
  | function defined =>
    have shape := sound.anonymous defined rfl
    rw [Item.kind]
    cases kind with
    | expression => rw [if_pos (shape.mpr rfl)]
    | definition => rw [if_neg (fun anonymous => by simpa using shape.mp anonymous)]
    | declaration =>
      obtain ⟨prototype, same⟩ := sound.declares.mp rfl
      contradiction

variable {σ : Type} [CharSource σ] {settings : Settings} {source : σ}
  {session next last : Session (Lexer σ)} {episode : Episode} {episodes : List Episode}

/-- What the reply to an episode says is what its line says, and an item is of the kind that the
episode opens. -/
structure Episode.Tells (episode : Episode) (result : ItemResult) : Prop where
  reply : result.reply = episode.reply
  line : result.line = episode.line
  kind : ∀ item, episode.reply = .parsed item → item.kind = episode.kind

/-- A turn answers the next result of the input. -/
theorem Turn.tells (turn : Turn settings session episode next)
    (settles : session.parser.Settles) (reached : session.parser.Reached settings source) :
    next.parser.Settles ∧ next.parser.Reached settings source ∧ ∃ result, episode.Tells result ∧
      session.parser.results = result :: next.parser.results := by
  obtain ⟨semicolons, tokens, reply⟩ := episode
  obtain ⟨turned, _, _, piece, _⟩ := turn
  have left := Session.turn_keeps Parser.Reached.keeps reached
  rw [turned] at left
  -- Behind its turn the parser has the results that it has behind the item.
  have onwards {result : ItemResult} {rest : Parser (Lexer σ)}
      (attempt : session.parser.item? = (some result, rest)) : next.parser.Settles ∧
        session.parser.results = result :: next.parser.results := by
    have settled := (settles.item? attempt).onwards result
    rw [Session.parser_turn attempt turned, Parser.results_withoutLog settled]
    exact ⟨settled.withoutLog, Parser.results_of_some attempt⟩
  cases piece with
  | @parsed clause _ rest attempt _ _ spelled =>
    obtain ⟨settled, results⟩ := onwards attempt
    have kind :
        Episode.kind ⟨semicolons, tokens, .parsed (clause.item settings.operators.strength)⟩ =
          clause.kind := by
      rw [Episode.kind, ← clause.itemKind_head, spelled, List.head?_map, Option.map_map]
      rfl
    refine ⟨settled, left, _, ⟨rfl, ?_, ?_⟩, results⟩
    · exact (Session.announcement_eq _).trans (congrArg ItemKind.line kind.symm)
    · rintro _ ⟨⟩
      have handed : Parser.Handed settings source clause.kind
          (clause.item settings.operators.strength) := ⟨session.parser, rest, reached, attempt⟩
      exact handed.sound.kind_eq.trans kind.symm
  | @rejected kind error _ rest attempt =>
    obtain ⟨settled, results⟩ := onwards attempt
    exact ⟨settled, left, _, ⟨rfl, rfl, nofun⟩, results⟩

/-- Turns answer results of the input one after the other. -/
theorem Turns.tells (turns : Turns settings session episodes last)
    (settles : session.parser.Settles) (reached : session.parser.Reached settings source) :
    ∃ results, List.Forall₂ Episode.Tells episodes results ∧
      session.parser.results = results ++ last.parser.results := by
  induction turns with
  | nil session => exact ⟨[], .nil, rfl⟩
  | cons turn _ ih =>
    obtain ⟨settled, left, result, tells, first⟩ := turn.tells settles reached
    obtain ⟨results, others, behind⟩ := ih settled left
    refine ⟨result :: results, .cons tells others, ?_⟩
    rw [first, behind, List.cons_append]

theorem map_line_of_tells {results : List ItemResult}
    (tells : List.Forall₂ Episode.Tells episodes results) :
    results.map (·.line) = episodes.map (·.line) := by
  induction tells with
  | nil => rfl
  | cons first _ ih => rw [List.map_cons, List.map_cons, first.line, ih]

theorem map_reply_of_tells {results : List ItemResult}
    (tells : List.Forall₂ Episode.Tells episodes results) :
    results.map (·.reply) = episodes.map (·.reply) := by
  induction tells with
  | nil => rfl
  | cons first _ ih => rw [List.map_cons, List.map_cons, first.reply, ih]

theorem kind_of_tells {results : List ItemResult}
    (tells : List.Forall₂ Episode.Tells episodes results) :
    ∀ episode ∈ episodes, ∀ item, episode.reply = .parsed item → item.kind = episode.kind := by
  induction tells with
  | nil => simp
  | cons first _ ih => exact List.forall_mem_cons.mpr ⟨first.kind, ih⟩

/-- Where a turn finds nothing more, no results are left. -/
theorem Session.results_of_ended (ended : session.turn.1 = .ok none) :
    session.parser.results = [] := by
  obtain ⟨rest, attempt, _⟩ := exists_of_turn_none (Prod.ext ended rfl)
  exact Parser.results_of_none attempt

/-- Each reply is an item or an error. -/
theorem length_replies (replies : List Reply) :
    (replies.filterMap Reply.item?).length + (replies.filterMap Reply.error?).length =
      replies.length := by
  induction replies with
  | nil => rfl
  | cons reply replies ih =>
    cases reply with
    | parsed item =>
      simp only [List.filterMap_cons, Reply.item?, Reply.error?, List.length_cons]
      omega
    | rejected error =>
      simp only [List.filterMap_cons, Reply.item?, Reply.error?, List.length_cons]
      omega

namespace Session

/-- What the runs over a text report and show, with the episodes of the text. -/
structure ShowsReport (settings : Settings) (text : String) (report : Report)
    (episodes : List Episode) : Prop where
  /-- The episodes are those of the text in their order: their tokens are all of its tokens but for
  semicolons at the end. -/
  accounts : ∃ first last, (ofText settings text false).start = (.ok (), first) ∧
    Turns settings first episodes last ∧ last.turn.1 = .ok none ∧
    locatedTokens text = episodes.flatMap Episode.tokens ++ last.parser.ahead ∧
    ∀ token ∈ last.parser.ahead, token.token = .symbol ';'
  items : report.items.toList = (episodes.map (·.reply)).filterMap Reply.item?
  errors : report.errors.toList = (episodes.map (·.reply)).filterMap Reply.error?
  /-- An item has the shape of the kind that its first token opens. -/
  kinds : ∀ episode ∈ episodes, ∀ item, episode.reply = .parsed item → item.kind = episode.kind
  /-- The lines that announce items are, in their order, those of the kinds of the items. -/
  announced : (episodes.filterMap fun episode => episode.reply.item?.map fun _ => episode.line) =
    report.items.toList.map (·.kind.line)
  /-- The lines of errors are, in their order, the texts of the errors. -/
  complained : (episodes.filterMap fun episode => episode.reply.error?.map fun _ => episode.line) =
    report.errors.toList.map fun error => "Error: " ++ error.text ++ "\n"
  plain : ∃ final, (ofText settings text false).run .unlimited = (.ok report, final) ∧
    final.shown = String.join (episodes.map (·.line)) ∧ final.flushes = []
  asked : ∃ final, (ofText settings text true).run .unlimited = (.ok report, final) ∧
    final.shown = String.join (episodes.map ("ready> " ++ ·.line)) ++ "ready> " ∧
    final.flushes.length = report.items.size + report.errors.size + 1

/-- Prompts behind the lines and one in front are prompts in front of the lines and one behind. -/
theorem prompts_join (lines : List String) :
    promptText ++ String.join (lines.map (· ++ promptText)) =
      String.join (lines.map (promptText ++ ·)) ++ promptText := by
  induction lines with
  | nil => rfl
  | cons line lines ih =>
    simp only [List.map_cons, String.join_cons, String.append_assoc, ih]

/-- A session over a text takes turns that account for its tokens and tell its results. -/
theorem exists_episodes (settings : Settings) (text : String) :
    ∃ episodes, (∃ first last, (ofText settings text false).start = (.ok (), first) ∧
      Turns settings first episodes last ∧ last.turn.1 = .ok none ∧
      locatedTokens text = episodes.flatMap Episode.tokens ++ last.parser.ahead ∧
      ∀ token ∈ last.parser.ahead, token.token = .symbol ';') ∧
      List.Forall₂ Episode.Tells episodes (resultsOfText settings text) := by
  obtain ⟨first, started, parser, sink⟩ := start_succeeds (ofText settings text false) rfl
  have read : first.parser = (parserOfText settings text).advance.withoutLog := parser
  have settles := Parser.settles_parserOfText settings text
  have known : first.parser.settings = settings := congrArg (·.settings) read
  have ends : first.parser.EndsForGood := read ▸ Parser.advance_endsForGood _
  have reached : first.parser.Reached settings text.toList := by
    rw [read]
    exact Parser.Reached.start.advance.log #[]
  have ahead : first.parser.ahead = locatedTokens text := by
    rw [read, locatedTokens, TokenSource.toList_drain, List.nil_append]
    exact Parser.ahead_advance _
  obtain ⟨episodes, last, _, turns, ended, _, left, only⟩ :=
    takeTurns_turns .empty sink known ends
  obtain ⟨results, tells, whole⟩ := turns.tells (read ▸ settles.withoutLog) reached
  rw [results_of_ended ended, List.append_nil, read, Parser.results_withoutLog settles] at whole
  refine ⟨episodes, ⟨first, last, started, turns, ended, ahead.symm.trans left, only⟩, ?_⟩
  rw [resultsOfText, whole]
  exact tells

/-- The output of a run over a sink without limits is one line for each thing reported, and an
interactive run differs from it by its prompts alone. -/
theorem output_tells_report (settings : Settings) (text : String) :
    ∃ report episodes, ShowsReport settings text report episodes := by
  obtain ⟨episodes, accounts, tells⟩ := exists_episodes settings text
  let report := Report.ofResults (resultsOfText settings text)
  have replies := map_reply_of_tells tells
  have kinds := kind_of_tells tells
  have items : report.items.toList = (episodes.map (·.reply)).filterMap Reply.item? :=
    replies ▸ Report.items_ofResults _
  have errors : report.errors.toList = (episodes.map (·.reply)).filterMap Reply.error? :=
    replies ▸ Report.errors_ofResults _
  obtain ⟨plain, ranPlain, shown, silent⟩ := run_unlimited settings text false
  obtain ⟨asked, ranAsked, shownAsked, flushes⟩ := run_unlimited settings text true
  rw [map_line_of_tells tells] at shown silent shownAsked flushes
  refine ⟨report, episodes, accounts, items, errors, kinds, ?_, ?_,
    ⟨plain, ranPlain, ?_, ?_⟩, ⟨asked, ranAsked, ?_, ?_⟩⟩
  · rw [items, List.filterMap_map, List.map_filterMap]
    apply List.filterMap_congr
    intro episode present
    have kind := kinds episode present
    rcases episode with ⟨semicolons, piece, item | error⟩
    · exact congrArg (some <| ItemKind.line ·) (kind item rfl).symm
    · rfl
  · rw [errors, List.filterMap_map, List.map_filterMap]
    apply List.filterMap_congr
    rintro ⟨semicolons, piece, item | error⟩ _ <;> rfl
  · have silence : (episodes.map (·.line)).map (· ++ "") = episodes.map (·.line) := by
      simp only [String.append_empty, List.map_id']
    exact shown.trans (String.empty_append.trans (congrArg String.join silence))
  · exact List.eq_nil_of_length_eq_zero silent
  · refine shownAsked.trans ((prompts_join (episodes.map Episode.line)).trans ?_)
    rw [List.map_map]
    rfl
  · have count := length_replies (episodes.map (·.reply))
    rw [← items, ← errors, Array.length_toList, Array.length_toList, List.length_map] at count
    rw [flushes, if_pos rfl, List.length_map, count]

end Session

end OpLang
