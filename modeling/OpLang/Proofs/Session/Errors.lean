import OpLang.Proofs.Lexer.Order
import OpLang.Proofs.Session.Progress
import OpLang.Proofs.Session.Rounds

/-! # Errors in the order of the text

A session goes on behind what an item has passed, and after an error behind the offender. So the
errors that it reports complain about tokens of the text, each about a later one than the error
before. Only the last reply can complain about the end of input, because nothing is left behind it
that could be replied to.
-/

namespace OpLang

/-- What a reply uses of the tokens that are left, and what it leaves of them. An item uses the
tokens that it is read from, an error those up to its offender. An error at the end of input uses
them all. -/
inductive Reply.Uses (finish : Location) :
    List LocatedToken → Reply → List LocatedToken → Prop where
  | parsed {passed others : List LocatedToken} (item : Item) (filled : passed ≠ []) :
    Uses finish (passed ++ others) (.parsed item) others
  | rejected {passed others : List LocatedToken} (error : ParseError) :
    Uses finish (passed ++ error.offender :: others) (.rejected error) others
  | ended {tokens : List LocatedToken} {error : ParseError} (filled : tokens ≠ [])
    (offender : error.offender = ⟨.endOfInput, finish⟩) :
    Uses finish tokens (.rejected error) []

/-- Replies use tokens, one after the other. -/
inductive Reply.AllUse (finish : Location) : List LocatedToken → List Reply → Prop where
  | nil (tokens : List LocatedToken) : AllUse finish tokens []
  | cons {tokens others : List LocatedToken} {reply : Reply} {replies : List Reply}
    (first : reply.Uses finish tokens others) (onwards : AllUse finish others replies) :
    AllUse finish tokens (reply :: replies)

namespace Parser

variable {τ : Type} [TokenSource τ] {parser rest : Parser τ} {tokens : List LocatedToken}
  {finish : Location} {result : ItemResult}

/-- What a call for an item leaves of the tokens, with the offender passed, is still held. -/
theorem Holds.item?_uses (holds : parser.Holds tokens finish)
    (attempt : parser.item? = (some result, rest)) :
    ∃ others, result.reply.Uses finish tokens others ∧
      (result.onwards rest).Holds others finish := by
  obtain ⟨semicolons, skips, _⟩ := skipSemicolons_passes parser
  obtain ⟨found, rfl, begun⟩ := holds.passes skips
  have attempted := attempts_item? parser
  rw [attempt] at attempted
  cases attempted with
  | @parsed kind item _ passed passes reads =>
    obtain ⟨others, rfl, held⟩ := begun.passes passes
    have filled := List.append_ne_nil_of_right_ne_nil semicolons (reads.ne_nil passes)
    rw [← List.append_assoc]
    exact ⟨others, .parsed item filled, held⟩
  | @rejected kind error _ passed nonempty passes offender =>
    obtain ⟨others, rfl, held⟩ := begun.passes passes
    cases others with
    | nil =>
      have filled : semicolons ++ (passed ++ []) ≠ [] := by
        refine List.append_ne_nil_of_right_ne_nil semicolons fun nothing => ?_
        exact nonempty (begun.eq_nil_iff.mp nothing)
      exact ⟨[], .ended filled (offender.symm.trans held.here_nil), held.advance⟩
    | cons token others =>
      obtain rfl : token = error.offender := held.here_cons.symm.trans offender
      rw [← List.append_assoc]
      exact ⟨others, .rejected error, held.advance⟩

end Parser

/-! ### Replies in the order of their tokens -/

namespace Reply.AllUse

variable {tokens : List LocatedToken} {finish : Location} {replies : List Reply}

/-- Where nothing is left there is nothing to reply to. -/
theorem eq_nil (uses : AllUse finish [] replies) : replies = [] := by
  generalize left : ([] : List LocatedToken) = tokens at uses
  cases uses with
  | nil => rfl
  | cons first =>
    cases first with
    | parsed _ filled => exact absurd (List.append_eq_nil_iff.mp left.symm).1 filled
    | rejected => simp at left
    | ended filled => exact absurd left.symm filled

/-- Errors complain about tokens in their order, and at last about the end of input. -/
theorem offenders_sublist (uses : AllUse finish tokens replies) :
    ((replies.filterMap error?).map (·.offender)).Sublist (tokens ++ [⟨.endOfInput, finish⟩]) := by
  induction uses with
  | nil => exact List.nil_sublist _
  | cons first onwards ih =>
    cases first with
    | parsed =>
      rw [List.append_assoc]
      exact ih.trans (List.sublist_append_right _ _)
    | rejected error =>
      rw [List.append_assoc]
      exact (ih.cons_cons error.offender).trans (List.sublist_append_right _ _)
    | ended _ offender =>
      rw [onwards.eq_nil]
      exact offender ▸ List.sublist_append_right _ _

/-- Behind a complaint about the end of input there are no more replies. -/
theorem eq_nil_of_ended {front behind : List Reply} {error : ParseError}
    (uses : AllUse finish tokens (front ++ .rejected error :: behind))
    (found : ∀ token ∈ tokens, token.token ≠ .endOfInput)
    (ended : error.offender.token = .endOfInput) : behind = [] := by
  induction front generalizing tokens with
  | nil =>
    cases uses with
    | cons first onwards =>
      cases first with
      | rejected => exact absurd ended (found error.offender (by simp))
      | ended => exact onwards.eq_nil
  | cons reply front ih =>
    cases uses with
    | @cons _ others _ _ first onwards =>
      have left : ∀ token ∈ others, token ∈ tokens := by
        cases first <;> simp_all
      exact ih onwards fun token member => found token (left token member)

end Reply.AllUse

namespace Session

variable {σ : Type} [CharSource σ] {session next last : Session (Lexer σ)} {settings : Settings}
  {episodes : List Episode} {tokens : List LocatedToken} {finish : Location}

/-- The replies of turns use the tokens that are held before the first of them. -/
theorem allUse_of_turns (turns : Turns settings session episodes last)
    (holds : session.parser.Holds tokens finish) :
    Reply.AllUse finish tokens (episodes.map (·.reply)) := by
  induction turns generalizing tokens with
  | nil => exact .nil tokens
  | @cons session next last episode episodes turn _ ih =>
    rcases attempt : session.parser.item? with ⟨_ | result, rest⟩
    · cases (turn_of_nothing attempt).symm.trans turn.turned
    · obtain ⟨others, uses, held⟩ := holds.item?_uses attempt
      have reply : episode.reply = result.reply :=
        Option.some.inj (reply_of_turn attempt turn.turned)
      rw [List.map_cons, reply]
      exact .cons uses (ih (parser_turn attempt turn.turned ▸ held.log #[]))

/-- After any rounds, the next one finds some of the tokens of the text left. -/
theorem exists_left_afterRounds {cut : Segmentation} {text : String}
    (cuts : cut.Cuts text.toList) (settings : Settings) (rounds : List Round) :
    ∃ index, ((ofText settings text false).afterRounds rounds).parser.advance.Holds
      ((locate [] cut.segments).drop index) (.behind text.toList) := by
  have keeps : Parser.Keeps fun parser : Parser (Lexer (List Char)) => ∃ index,
      parser.advance.Holds ((locate [] cut.segments).drop index) (.behind text.toList) := by
    refine ⟨fun ⟨index, holds⟩ => ⟨index + 1, ?_⟩, fun log ⟨index, holds⟩ => ⟨index, holds.log _⟩⟩
    rw [← List.tail_drop]
    exact holds.advance
  have begins : ∃ index, (ofText settings text false).parser.advance.Holds
      ((locate [] cut.segments).drop index) (.behind text.toList) :=
    ⟨0, Parser.holds_ofSource settings (CharSource.ahead_list text.toList) cuts⟩
  exact afterRounds_keeps keeps begins rounds

/-- The errors of a report are found in the order of the text, and those of them that are found at
the end of input are at most one, which is the last of all replies. -/
structure ErrorsInOrder (cut : Segmentation) (text : String) (replies : List Reply)
    (report : Report) : Prop where
  /-- Each error is found at the beginning of a token or at the end of input. -/
  offenders : (report.errors.toList.map (·.offender)).Sublist
    (locate [] cut.segments ++ [⟨.endOfInput, .behind text.toList⟩])
  increasing : report.errors.toList.Pairwise (·.location < ·.location)
  once : report.errors.toList.countP (·.offender.token = .endOfInput) ≤ 1
  last : ∀ front error behind, replies = front ++ .rejected error :: behind →
    error.offender.token = .endOfInput → behind = []

/-- Replies that use tokens of a text have their errors in its order. -/
theorem errorsInOrder_of_allUse {cut : Segmentation} {text : String} {replies : List Reply}
    {index : Nat} (cuts : cut.Cuts text.toList)
    (uses : Reply.AllUse (.behind text.toList) ((locate [] cut.segments).drop index) replies) :
    ErrorsInOrder cut text replies (replies.foldl .add .empty) := by
  have found : ∀ token ∈ locate [] cut.segments, token.token ≠ .endOfInput :=
    (Parser.holds_ofSource .standard (CharSource.ahead_list _) cuts).found
  have errors : (replies.foldl Report.add .empty).errors.toList = replies.filterMap Reply.error? :=
    Report.errors_foldl_add replies .empty
  have offenders := uses.offenders_sublist.trans
    ((List.drop_sublist index (locate [] cut.segments)).append_right _)
  have ordered :=
    (Segmented.ordered cuts []).append_finish ⟨.endOfInput, .behind text.toList⟩ rfl
  rw [← errors] at offenders
  have increasing := ordered.sublist offenders
  rw [List.pairwise_map] at increasing
  refine ⟨offenders, increasing, ?_, ?_⟩
  · have nowhere : (locate [] cut.segments).countP (·.token = .endOfInput) = 0 :=
      List.countP_eq_zero.mpr (by simpa using found)
    calc (replies.foldl Report.add .empty).errors.toList.countP (·.offender.token = .endOfInput)
        = ((replies.foldl Report.add .empty).errors.toList.map (·.offender)).countP
            (·.token = .endOfInput) := by
          rw [List.countP_map]
          rfl
      _ ≤ (locate [] cut.segments ++ [LocatedToken.mk .endOfInput (.behind text.toList)]).countP
            (·.token = .endOfInput) := offenders.countP_le
      _ = 1 := by
        rw [List.countP_append, nowhere]
        rfl
  · rintro front error behind rfl
    exact uses.eq_nil_of_ended fun token member => found token (List.mem_of_mem_drop member)

/-- Whatever rounds a session over a text was run in before, a round that comes to its end reports
errors at later and later places of the text. -/
theorem errors_in_order {settings : Settings} {text : String} {rounds : List Round} {round : Round}
    {report : Report}
    (ended : (((ofText settings text false).afterRounds rounds).round round).1 = .ok report) :
    ∃ cut : Segmentation, cut.Cuts text.toList ∧ ∃ episodes last,
      Course { (ofText settings text false).afterRounds rounds with
        interactive := round.interactive } round.sink episodes last ∧
      last.turn.1 = .ok none ∧ report = (episodes.map (·.reply)).foldl .add .empty ∧
      ErrorsInOrder cut text (episodes.map (·.reply)) report ∧
      (PlacesFit text → Lexer.CountersFit text) := by
  obtain ⟨segments, finish, parts⟩ := exists_segmented text.toList
  have cuts : Segmentation.Cuts ⟨segments, finish⟩ text.toList := parts
  obtain ⟨index, holds⟩ := exists_left_afterRounds cuts settings rounds
  have ends := run_ends { (ofText settings text false).afterRounds rounds with
    interactive := round.interactive } round.sink
  rw [← Session.round, ended] at ends
  cases ends with
  | @finished episodes last _ course turn _ replies =>
    obtain ⟨first, started, turns⟩ := course.turns
    have left : first.parser.Holds ((locate [] segments).drop index) (.behind text.toList) := by
      rw [parser_start started]
      exact holds.log #[]
    have uses := allUse_of_turns turns left
    exact ⟨_, cuts, episodes, last, course, turn, replies,
      replies ▸ errorsInOrder_of_allUse cuts uses, PlacesFit.counters⟩

/-- There is no name in front of the first parenthesis, and nothing closes the other one. -/
theorem errors_in_order_of_unclosed :
    let session := ofText .standard "def ) extern f(x" false
    ∃ report, ((session.afterRounds []).round ⟨false, .unlimited⟩).1 = .ok report ∧
      report.errors.toList.map (·.location) = [⟨1, 5⟩, ⟨1, 17⟩] ∧
      ∃ cut : Segmentation, cut.Cuts "def ) extern f(x".toList ∧ ∃ episodes last,
        Course { session.afterRounds [] with interactive := false } .unlimited episodes last ∧
        last.turn.1 = .ok none ∧ report = (episodes.map (·.reply)).foldl .add .empty ∧
        ErrorsInOrder cut "def ) extern f(x" (episodes.map (·.reply)) report ∧
        (PlacesFit "def ) extern f(x" → Lexer.CountersFit "def ) extern f(x") := by
  intro session
  have places : ((session.afterRounds []).round ⟨false, .unlimited⟩).1.toOption.map
      (fun report => report.errors.toList.map (·.location)) = some [⟨1, 5⟩, ⟨1, 17⟩] := by
    decide +kernel
  rcases ended : ((session.afterRounds []).round ⟨false, .unlimited⟩).1 with fault | report
  · rw [ended] at places
    contradiction
  · rw [ended] at places
    exact ⟨report, rfl, Option.some.inj places, errors_in_order ended⟩

end Session

end OpLang
