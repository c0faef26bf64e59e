import OpLang.Program
import OpLang.Proofs.Lexer.Lexemes
import OpLang.Proofs.Parser.Programs
import OpLang.Proofs.Session.Unlimited

/-! # Accounting for every token

Every turn of a session passes the semicolons in front of an item and then a piece: the tokens of
the item or, after an error, the tokens that were passed before the offender and the offender
itself. The pieces and semicolons of all turns are the tokens of the text, in their order and each
of them once.

An error at the end of input has no offender to pass. Passing the token at hand all the same is
harmless only because a lexer that has answered the end of input goes on answering it.
-/

namespace OpLang

open Grammar

namespace Lexer

variable {σ : Type} [CharSource σ]

/-- Behind the end of input there is nothing. -/
theorem ahead_next_of_finished (lexer : Lexer σ) :
    lexer.next.1.token = .endOfInput → lexer.next.2.ahead = [] := by
  fun_induction next lexer with
  | case1 lexer marked looks => exact fun _ => ahead_of_none looks
  | case2 lexer marked looks ih => exact ih
  | case3 lexer marked char _ _ token rest read =>
    intro finished
    have found := token_ne_endOfInput marked char
    rw [read] at found
    exact absurd finished found

end Lexer

namespace Parser

variable {σ : Type} [CharSource σ] {parser rest : Parser (Lexer σ)}

/-- A parser that holds the end of input has nothing behind it. -/
def EndsForGood (parser : Parser (Lexer σ)) : Prop :=
  parser.current = .endOfInput → TokenSource.ahead parser.tokens = []

theorem advance_endsForGood (parser : Parser (Lexer σ)) : parser.advance.EndsForGood := by
  intro finished
  have nothing : parser.advance.tokens.ahead = [] := Lexer.ahead_next_of_finished _ finished
  exact TokenSource.ahead_of_finished (Lexer.next_of_blank (by rw [nothing]; simp))

theorem Passes.endsForGood {passed : List LocatedToken} (passes : Passes parser passed rest)
    (ends : parser.EndsForGood) : rest.EndsForGood := by
  induction passes with
  | stay => exact ends
  | advance _ _ ih => exact ih (advance_endsForGood _)
  | record _ _ ih => exact ih ends

end Parser

/-- The item that a reply reports. -/
def Reply.item? : Reply → Option Item
  | .parsed item => some item
  | .rejected _ => none

/-- The error that a reply reports. -/
def Reply.error? : Reply → Option ParseError
  | .parsed _ => none
  | .rejected error => some error

/-- The tokens that are passed because of an error: the offender, unless it is the end of input. -/
def ParseError.passed (error : ParseError) : List LocatedToken :=
  if error.offender.token = .endOfInput then [] else [error.offender]

/-- What a session passes in one turn, and what it replies. -/
structure Episode where
  semicolons : List LocatedToken
  piece : List LocatedToken
  reply : Reply

/-- The tokens that a session passes in one turn. -/
def Episode.tokens (episode : Episode) : List LocatedToken := episode.semicolons ++ episode.piece

/-- The tokens that belong to a reply. The piece of an item is a clause that writes it; the piece of
an error is what the attempt passed, and the offender. -/
inductive Piece {τ : Type} [TokenSource τ] (settings : Settings) (parser : Parser τ) :
    List LocatedToken → Reply → Prop where
  | parsed {clause : Clause} {piece : List LocatedToken} {rest : Parser τ}
    (attempt : parser.itemHere? =
      (some ⟨clause.kind, .ok (clause.item settings.operators.strength)⟩, rest))
    (passes : parser.Passes piece rest) (fits : clause.Fits settings)
    (spelled : clause.tokens = piece.map (·.token)) :
    Piece settings parser piece (.parsed (clause.item settings.operators.strength))
  | rejected {kind : ItemKind} {error : ParseError} {consumed : List LocatedToken}
    {rest : Parser τ} (attempt : parser.itemHere? = (some ⟨kind, .error error⟩, rest))
    (passes : parser.Passes consumed rest) (offender : rest.here = error.offender) :
    Piece settings parser (consumed ++ error.passed) (.rejected error)

/-- A session takes a turn and passes what the episode says. -/
structure Turn {τ : Type} [TokenSource τ] (settings : Settings) (session : Session τ)
    (episode : Episode) (next : Session τ) : Prop where
  turned : session.turn = (.ok (some episode.reply), next)
  skips : session.parser.Passes episode.semicolons session.parser.skipSemicolons
  semicolons : ∀ token ∈ episode.semicolons, token.token = .symbol ';'
  piece : Piece settings session.parser.skipSemicolons episode.piece episode.reply
  filled : episode.piece ≠ []

/-- A session takes turns, one after the other. -/
inductive Turns {τ : Type} [TokenSource τ] (settings : Settings) :
    Session τ → List Episode → Session τ → Prop where
  | nil (session : Session τ) : Turns settings session [] session
  | cons {session next last : Session τ} {episode : Episode} {episodes : List Episode}
    (turn : Turn settings session episode next) (others : Turns settings next episodes last) :
    Turns settings session (episode :: episodes) last

theorem Report.items_foldl_add (replies : List Reply) (report : Report) :
    (replies.foldl add report).items.toList =
      report.items.toList ++ replies.filterMap Reply.item? := by
  induction replies generalizing report with
  | nil => simp
  | cons reply replies ih =>
    rw [List.foldl_cons, ih]
    cases reply <;> simp [add, Reply.item?, List.filterMap_cons]

theorem Report.errors_foldl_add (replies : List Reply) (report : Report) :
    (replies.foldl add report).errors.toList =
      report.errors.toList ++ replies.filterMap Reply.error? := by
  induction replies generalizing report with
  | nil => simp
  | cons reply replies ih =>
    rw [List.foldl_cons, ih]
    cases reply <;> simp [add, Reply.error?, List.filterMap_cons]

namespace Session

variable {σ : Type} [CharSource σ] {session : Session (Lexer σ)} {settings : Settings}

/-- Behind an error the tokens are those that are ahead of the parser past the offender. -/
theorem ahead_of_offender {rest : Parser (Lexer σ)} {error : ParseError} (ends : rest.EndsForGood)
    (offender : rest.here = error.offender) :
    rest.ahead = error.passed ++ rest.advance.ahead := by
  have same : error.offender.token = rest.current := congrArg (·.token) offender.symm
  rw [ParseError.passed, same]
  split
  · next finished =>
    rw [Parser.ahead_advance, ends finished, Parser.ahead_eq_nil_iff.mpr finished, List.append_nil]
  · next found => rw [Parser.ahead_of_found found, offender, List.singleton_append]

/-- A session with tokens ahead takes a turn, and what is left is ahead of the next. -/
theorem exists_turn (unlimited : session.sink = .unlimited)
    (known : session.parser.settings = settings) (ends : session.parser.EndsForGood) :
    (∃ next, session.turn = (.ok none, next) ∧
      ∀ token ∈ session.parser.ahead, token.token = .symbol ';') ∨
    ∃ episode next, Turn settings session episode next ∧
      session.parser.ahead = episode.tokens ++ next.parser.ahead ∧ next.sink = .unlimited ∧
      next.parser.settings = settings ∧ next.parser.EndsForGood := by
  obtain ⟨semicolons, skips, only⟩ := Parser.skipSemicolons_passes session.parser
  have startKnown : session.parser.skipSemicolons.settings = settings :=
    skips.settings_eq.trans known
  have startEnds := skips.endsForGood ends
  have attempted := Parser.attempts session.parser.skipSemicolons
  generalize attempt : session.parser.skipSemicolons.itemHere? = outcome at attempted
  cases attempted with
  | finished current =>
    obtain ⟨next, turned, _, _⟩ := turn_of_none session unlimited attempt
    refine .inl ⟨next, turned, ?_⟩
    rw [skips.ahead_eq, Parser.ahead_eq_nil_iff.mpr current, List.append_nil]
    exact only
  | @parsed kind item rest piece passes reads =>
    have filled := reads.ne_nil passes
    obtain ⟨clause, fits, rfl, rfl, upcoming⟩ := reads
    have spelled : clause.tokens = piece.map (·.token) := (passes.tokens_eq upcoming).symm
    rw [startKnown] at fits attempt
    obtain ⟨next, turned, same, sink⟩ := turn_of_ok session unlimited attempt
    have left : next.parser.ahead = rest.ahead := congrArg (·.ahead) same
    have kept : next.parser.settings = rest.settings := congrArg (·.settings) same
    refine .inr ⟨⟨semicolons, piece, _⟩, next,
      ⟨turned, skips, only, Piece.parsed attempt passes fits spelled, filled⟩, ?_, sink,
      kept.trans (passes.settings_eq.trans startKnown), same ▸ passes.endsForGood startEnds⟩
    rw [skips.ahead_eq, passes.ahead_eq, left]
    simp only [Episode.tokens, List.append_assoc]
  | @rejected kind error rest consumed found passes offender =>
    have ends := passes.endsForGood startEnds
    have whole : session.parser.skipSemicolons.ahead =
        (consumed ++ error.passed) ++ rest.advance.ahead := by
      rw [passes.ahead_eq, ahead_of_offender ends offender, List.append_assoc]
    have filled : consumed ++ error.passed ≠ [] := by
      -- An error at the end of input has passed something, because no attempt begins there.
      intro empty
      obtain ⟨rfl, nothing⟩ := List.append_eq_nil_iff.mp empty
      have same : error.offender.token = rest.current := congrArg (·.token) offender.symm
      have finished : rest.current = .endOfInput := by
        simpa [ParseError.passed, same] using nothing
      have none := passes.ahead_eq.trans (Parser.ahead_eq_nil_iff.mpr finished)
      exact found (Parser.ahead_eq_nil_iff.mp none)
    obtain ⟨next, turned, same, sink⟩ := turn_of_error session unlimited attempt
    have left : next.parser.ahead = rest.advance.ahead := congrArg (·.ahead) same
    have kept : next.parser.settings = rest.settings := congrArg (·.settings) same
    refine .inr ⟨⟨semicolons, _, _⟩, next,
      ⟨turned, skips, only, .rejected attempt passes offender, filled⟩, ?_, sink,
      kept.trans (passes.settings_eq.trans startKnown), same ▸ Parser.advance_endsForGood _⟩
    rw [skips.ahead_eq, whole, left]
    simp only [Episode.tokens, List.append_assoc]

/-- Taking turns until the end accounts for all tokens that were ahead. -/
theorem takeTurns_turns (report : Report) (unlimited : session.sink = .unlimited)
    (known : session.parser.settings = settings) (ends : session.parser.EndsForGood) :
    ∃ episodes last final, Turns settings session episodes last ∧ last.turn.1 = .ok none ∧
      session.takeTurns report =
        (.ok ((episodes.map (·.reply)).foldl .add report), final) ∧
      session.parser.ahead = episodes.flatMap Episode.tokens ++ last.parser.ahead ∧
      ∀ token ∈ last.parser.ahead, token.token = .symbol ';' := by
  fun_induction takeTurns report session with
  | case1 report session next turned =>
    rcases exists_turn unlimited known ends with ⟨_, _, only⟩ | ⟨_, _, turn, _⟩
    · exact ⟨[], session, _, .nil session, by rw [turned], rfl, rfl, only⟩
    · cases turned.symm.trans turn.turned
  | case2 report session reply next turned ih =>
    rcases exists_turn unlimited known ends with ⟨_, finished, _⟩ |
      ⟨episode, other, turn, tokens, sink, kept, nextEnds⟩
    · cases turned.symm.trans finished
    · have same := turned.symm.trans turn.turned
      simp only [Prod.mk.injEq, Except.ok.injEq, Option.some.injEq] at same
      obtain ⟨rfl, rfl⟩ := same
      obtain ⟨episodes, last, final, others, ended, answer, left, only⟩ := ih sink kept nextEnds
      refine ⟨episode :: episodes, last, final, .cons turn others, ended, answer, ?_, only⟩
      rw [tokens, left, List.flatMap_cons, List.append_assoc]
  | case3 report session fault next turned =>
    rcases exists_turn unlimited known ends with ⟨_, finished, _⟩ | ⟨_, _, turn, _⟩
    · cases turned.symm.trans finished
    · cases turned.symm.trans turn.turned

/-- The turns of a run pass every token of the text once, in order: semicolons, pieces of items and
pieces of errors, and at last only semicolons. What the turns reply is what the run reports. -/
theorem run_accounts (settings : Settings) (text : String) (interactive : Bool) :
    let session : Session (Lexer (List Char)) :=
      { ofParser (parserOfText settings text) with interactive }
    ∃ (report : Report) (final first last : Session (Lexer (List Char)))
      (episodes : List Episode), session.run .unlimited = (.ok report, final) ∧
        session.start = (.ok (), first) ∧ Turns settings first episodes last ∧
        last.turn.1 = .ok none ∧
        locatedTokens text = episodes.flatMap Episode.tokens ++ last.parser.ahead ∧
        (∀ token ∈ last.parser.ahead, token.token = .symbol ';') ∧
        report.items.toList = (episodes.map (·.reply)).filterMap Reply.item? ∧
        report.errors.toList = (episodes.map (·.reply)).filterMap Reply.error? := by
  intro session
  obtain ⟨first, started, same, sink⟩ := start_succeeds session rfl
  have known : first.parser.settings = settings := congrArg (·.settings) same
  have ends : first.parser.EndsForGood := same ▸ Parser.advance_endsForGood _
  have ahead : first.parser.ahead = locatedTokens text := by
    rw [same, locatedTokens, TokenSource.toList_drain, List.nil_append]
    exact Parser.ahead_advance _
  obtain ⟨episodes, last, final, turns, ended, answer, left, only⟩ :=
    takeTurns_turns .empty sink known ends
  refine ⟨_, final, first, last, episodes, ?_, started, turns, ended, ahead.symm.trans left, only,
    Report.items_foldl_add _ .empty, Report.errors_foldl_add _ .empty⟩
  exact Doing.andThen_eq_ok_iff.mpr ⟨(), first, started, answer⟩

end Session

end OpLang
