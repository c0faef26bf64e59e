import OpLang.Proofs.Lexer.Remainder
import OpLang.Proofs.Session.Independence
import OpLang.Proofs.Session.Rounds

/-! # Where sessions go on

A session that is run again goes on right behind the token at hand. It does what a session over the
rest of the text does, except that errors are found at their places in the whole text. Since these
places are written, they take the room in a sink that they need there. Before the first prompt that
is not refused the end of input is at hand, but nothing has been read, and nothing is passed.
-/

namespace OpLang

theorem Location.past_nil (place : Location) : place.past [] = place := by
  simp [past]

theorem ItemResult.moved_past_nil (result : ItemResult) : result.moved (.past []) = result := by
  have same : Location.past [] = id := funext Location.past_nil
  rw [same, moved_id]

/-- The report with its errors at other places. -/
def Report.moved (move : Location → Location) (report : Report) : Report :=
  { report with errors := report.errors.map (·.moved move) }

theorem Report.ofResults_moved (move : Location → Location) (results : List ItemResult) :
    ofResults (results.map (·.moved move)) = (ofResults results).moved move := by
  have items := items_append_moved move [] results
  have errors := errors_append_moved move [] results
  simp only [List.nil_append] at items errors
  exact congrArg₂ mk (items.trans Array.empty_append) (errors.trans Array.empty_append)

namespace Sink

/-- A sink with room for everything refuses only flushes, and which of them does not depend on the
texts between them. -/
theorem fault?_of_unbounded (limit : Option Nat) (acts : List Act) :
    (perform ⟨none, limit⟩ acts).fault? =
      limit.bind fun limit => if limit < Act.flushes acts then some .flushFailed else none := by
  induction acts generalizing limit with
  | nil => cases limit <;> rfl
  | cons act acts ih =>
    cases act with
    | write text => exact ih limit
    | flush =>
      rcases limit with _ | _ | limit
      · exact ih none
      · rfl
      · change (perform ⟨none, some limit⟩ acts).fault? = _
        rw [ih]
        simp [Act.flushes]

end Sink

/-- Where a sink without a bound on its room is asked for as many flushes, it answers alike. -/
theorem Performance.answer_of_unbounded {sink : Sink} (unbounded : sink.room = none)
    {first second : List Act} (same : Act.flushes first = Act.flushes second)
    {α β : Type} (value : α) (turn : α → β) :
    (sink.perform second).answer (turn value) = ((sink.perform first).answer value).map turn := by
  obtain ⟨_, limit⟩ := sink
  subst unbounded
  rw [answer, answer, Sink.fault?_of_unbounded, Sink.fault?_of_unbounded, same]
  split <;> rfl

namespace Session

/-- A session over a text behaves as if the characters that are left were all of its text. -/
structure Resumes (settings : Settings) (passed rest : List Char)
    (session : Session (Lexer (List Char))) : Prop where
  /-- In any round it performs what a session over the rest performs, but errors have moved. -/
  performs (round : Round) :
    let results := resultsOfText settings (.ofList rest)
    let fresh := ofText settings (.ofList rest) round.interactive
    let again : Session (Lexer (List Char)) := { session with interactive := round.interactive }
    fresh.Runs round.sink results (fresh.round round) ∧
      again.Runs round.sink (results.map (·.moved (.past passed))) (session.round round)
  /-- A sink without a bound on its room does not tell the places apart. -/
  answers (round : Round) (unbounded : round.sink.room = none) :
    (session.round round).1 =
      ((ofText settings (.ofList rest) false).round round).1.map (·.moved (.past passed))
  /-- Errors have moved to where they stand in the whole text. -/
  places (front : List Char) :
    Location.behind (passed ++ front) = (Location.behind front).past passed

variable {settings : Settings} {passed rest : List Char} {session : Session (Lexer (List Char))}

theorem resumes_of_results (settles : session.parser.advance.Settles)
    (results : session.parser.advance.results =
      (resultsOfText settings (.ofList rest)).map (·.moved (.past passed))) :
    Resumes settings passed rest session := by
  have fresh (round : Round) := run_runs round.sink
    (ofText settings (.ofList rest) round.interactive)
    (Parser.settles_parserOfText settings (.ofList rest))
  have again (round : Round) :=
    run_runs round.sink { session with interactive := round.interactive } settles
  refine ⟨fun round => ⟨fresh round, ?_⟩, fun round unbounded => ?_, Location.behind_append passed⟩
  · rw [← results]
    exact again round
  · refine (again round).answer.trans ?_
    refine Eq.trans ?_ (congrArg (Except.map _) (fresh round).answer).symm
    dsimp only
    rw [results, Report.ofResults_moved]
    refine Performance.answer_of_unbounded unbounded ?_ _ (Report.moved (.past passed))
    rw [flushes_script, flushes_script, List.length_map, List.length_map, List.length_map]
    rfl

/-- Behind the token at hand nothing but the rest matters. -/
theorem resumes_of_leaves {cut : Segmentation} {text : String} {index : Nat}
    (known : session.parser.settings = settings)
    (holds : session.parser.Holds ((locate [] cut.segments).drop index) (.behind text.toList))
    (leaves : cut.Leaves index passed rest) (split : text.toList = passed ++ rest) :
    Resumes settings passed rest session := by
  obtain ⟨finish, left⟩ := leaves.cuts
  have fresh := Parser.holds_ofSource settings (CharSource.ahead_list rest) left
  have next := holds.advance
  rw [List.tail_drop, leaves.places, split, Location.behind_append] at next
  refine resumes_of_results ⟨_, _, next⟩ ?_
  rw [resultsOfText, parserOfText, String.toList_ofList]
  have same : session.parser.advance.settings = settings := known
  exact Parser.results_moved fresh next (fun _ _ _ _ => trivial) (by rw [same]; rfl)
    (same ▸ .refl (fun _ => True) settings.operators)

/-- Where nothing is left, a session reports nothing and shows a prompt at most. -/
theorem Resumes.exists_of_nil (resumes : Resumes settings passed [] session)
    (interactive : Bool) : ∃ last, session.round ⟨interactive, .unlimited⟩ = (.ok .empty, last) ∧
      last.shown = prompts interactive := by
  have nothing : resultsOfText settings (.ofList []) = [] := by
    have holds := Parser.holds_ofSource settings (CharSource.ahead_list []) (.nil (.nil []))
    exact Parser.results_of_finished (holds.eq_nil_iff.mp rfl)
  obtain ⟨_, answer, shown, _⟩ := resumes.performs ⟨interactive, .unlimited⟩
  rw [nothing, List.map_nil, List.map_nil, Sink.perform_unlimited] at answer shown
  refine ⟨_, Prod.ext answer rfl, shown.trans ?_⟩
  exact (written_script interactive []).trans String.append_empty

/-- What a session has passed whose parser has a token of its text at hand: everything up to the
end of the lexeme, or of the text if that token is the end of input. -/
structure PassedUpTo (text : String) (cut : Segmentation) (parser : Parser (Lexer (List Char)))
    (passed : List Char) : Prop where
  here : ∃ index, passed.length = cut.reach index ∧ parser.here =
    ((locate [] cut.segments)[index]?).getD ⟨.endOfInput, .behind text.toList⟩
  finished : parser.current = .endOfInput → passed = text.toList

variable {text : String} {cut : Segmentation}

/-- Once a token has been read, a session goes on behind the token at hand. -/
theorem exists_of_hasUsed (cuts : cut.Cuts text.toList)
    (used : session.parser.HasUsed settings (locate [] cut.segments) (.behind text.toList) 0) :
    ∃ passed rest, text.toList = passed ++ rest ∧ Resumes settings passed rest session ∧
      PassedUpTo text cut session.parser passed := by
  obtain ⟨known, index, _, holds⟩ := used
  obtain ⟨passed, rest, split, leaves⟩ := Segmentation.exists_leaves cuts index
  refine ⟨passed, rest, split, resumes_of_leaves known holds leaves split, ?_, fun finished => ?_⟩
  · refine ⟨index, leaves.reach, ?_⟩
    have here := holds.stream 0
    rw [List.getElem?_drop, Nat.add_zero] at here
    exact here
  · have past : cut.segments.length ≤ index := by
      have none := List.drop_eq_nil_iff.mp (holds.eq_nil_iff.mpr finished)
      rwa [length_locate] at none
    have all : passed.length = text.toList.length := by
      rw [leaves.reach, Segmentation.reach_of_length_le past]
      exact congrArg List.length cuts.chars_eq
    exact (split ▸ List.prefix_append passed rest : passed <+: text.toList).eq_of_length all

/-- How a session over a text goes on after some rounds, if so much of the text has been passed. -/
structure GoesOn (settings : Settings) (text : String) (cut : Segmentation) (rounds : List Round)
    (passed rest : List Char) (session : Session (Lexer (List Char))) : Prop where
  split : text.toList = passed ++ rest
  resumes : Resumes settings passed rest session
  /-- As long as no round has got past its first prompt, nothing has been read. -/
  untouched (refused : ∀ round ∈ rounds, round.begins = false) :
    session.parser = parserOfText settings text ∧ passed = []
  behind (begun : ∃ round ∈ rounds, round.begins = true) :
    PassedUpTo text cut session.parser passed
  /-- After a round that has come to its end, nothing is left. -/
  exhausted (earlier later : List Round) (round : Round) (report : Report)
    (order : rounds = earlier ++ round :: later)
    (ended : (((ofText settings text false).afterRounds earlier).round round).1 = .ok report) :
    rest = [] ∧ ∀ interactive, ∃ last,
      session.round ⟨interactive, .unlimited⟩ = (.ok .empty, last) ∧
        last.shown = prompts interactive

theorem goesOn_of_refused {rounds : List Round}
    (refused : ∀ round ∈ rounds, round.begins = false) :
    GoesOn settings text cut rounds [] text.toList
      ((ofText settings text false).afterRounds rounds) := by
  have same : ((ofText settings text false).afterRounds rounds).parser =
      parserOfText settings text := parser_afterRounds refused
  refine ⟨rfl, ?_, fun _ => ⟨same, rfl⟩, ?_, ?_⟩
  · apply resumes_of_results
    · rw [same]
      exact Parser.settles_parserOfText settings text
    · rw [same, String.ofList_toList, funext ItemResult.moved_past_nil, List.map_id']
      rfl
  · rintro ⟨round, member, begins⟩
    exact absurd begins (Bool.eq_false_iff.mp (refused round member))
  · rintro earlier later round report rfl ended
    exact absurd (begins_of_round ended) (Bool.eq_false_iff.mp (refused round (by simp)))

theorem exists_goesOn_of_begun (cuts : cut.Cuts text.toList) {rounds : List Round}
    (begun : ∃ round ∈ rounds, round.begins = true) :
    ∃ passed rest, GoesOn settings text cut rounds passed rest
      ((ofText settings text false).afterRounds rounds) := by
  let session := ofText settings text false
  have first := Parser.holds_ofSource settings (CharSource.ahead_list text.toList) cuts
  have used : session.parser.advance.HasUsed settings (locate [] cut.segments)
      (.behind text.toList) 0 := ⟨rfl, 0, Nat.le_refl 0, first⟩
  obtain ⟨passed, rest, split, resumes, upTo⟩ :=
    exists_of_hasUsed cuts (afterRounds_leaves Parser.HasUsed.keeps begun used)
  refine ⟨passed, rest, split, resumes, fun refused => ?_, fun _ => upTo, ?_⟩
  · obtain ⟨round, member, begins⟩ := begun
    exact absurd begins (Bool.eq_false_iff.mp (refused round member))
  · rintro earlier later round report rfl ended
    have nothing : rest = [] := by
      rw [upTo.finished (current_afterRounds used ended later)] at split
      exact List.self_eq_append_right.mp split
    subst nothing
    exact ⟨rfl, resumes.exists_of_nil⟩

/-- A session over a text may be run in any rounds, over sinks that refuse at any point: the next
round goes on right behind the token at hand. -/
theorem resumes_behind_token (settings : Settings) (text : String) :
    ∃ cut : Segmentation, cut.Cuts text.toList ∧ ∀ rounds : List Round, ∃ passed rest,
      GoesOn settings text cut rounds passed rest
        ((ofText settings text false).afterRounds rounds) := by
  obtain ⟨segments, finish, parts⟩ := exists_segmented text.toList
  have cuts : Segmentation.Cuts ⟨segments, finish⟩ text.toList := parts
  refine ⟨_, cuts, fun rounds => ?_⟩
  by_cases begun : ∃ round ∈ rounds, round.begins = true
  · exact exists_goesOn_of_begun cuts begun
  · refine ⟨[], text.toList, goesOn_of_refused fun round member => ?_⟩
    exact Bool.eq_false_iff.mpr fun begins => begun ⟨round, member, begins⟩

/-- Where the first prompt has been refused the end of input is at hand, and yet the whole text is
read. And where the first complaint has been refused, the second one needs room for a column of two
digits, while the rest of the text has its error in a column of one. -/
theorem rounds_differ_from_rest :
    let asking := (ofText .standard "def" false).afterRounds [⟨true, ⟨some 0, none⟩⟩]
    let answering := (ofText .standard "def ) def )" false).afterRounds [⟨false, ⟨some 0, none⟩⟩]
    let fresh := ofText .standard " def )" false
    let round : Round := ⟨false, ⟨some 52, none⟩⟩
    (asking.parser.current = .endOfInput ∧
      (asking.round ⟨false, .unlimited⟩).2.shown =
        "Error: Expected function name in prototype (at 1:4)\n" ∧
      ((ofText .standard "" false).round ⟨false, .unlimited⟩).2.shown = "") ∧
    answering.parser.here = ⟨.symbol ')', ⟨1, 5⟩⟩ ∧
      (answering.round round).1.toOption.isSome = false ∧
      (answering.round round).2.shown =
        "Error: Expected function name in prototype (at 1:11)" ∧
      (fresh.round round).1.toOption.isSome = true ∧
      (fresh.round round).2.shown = "Error: Expected function name in prototype (at 1:6)\n" := by
  decide +kernel

end Session

end OpLang
