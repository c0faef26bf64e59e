import OpLang.Proofs.Session.Results

/-! # Programs and sessions agree

A program is read up to its first error, a session goes on behind it. Up to there both do the same:
a text is a program exactly if a session over it reports no error, and the first error that a
session reports is the one that the program has. The session has replied with the same items before
it.
-/

namespace OpLang

/-- The results up to the first error are what a program reading has. -/
theorem ProgramReading.exists_replies (read : Array Item) (results : List ItemResult) :
    ∃ collected, (ofResults read results).items.toList = read.toList ++ collected ∧
      match (ofResults read results).error? with
      | none => results.map (·.reply) = collected.map .parsed
      | some error => ∃ others,
          results.map (·.reply) = collected.map .parsed ++ .rejected error :: others := by
  fun_induction ofResults read results with
  | case1 read => exact ⟨[], (List.append_nil _).symm, rfl⟩
  | case2 read kind item results ih =>
    obtain ⟨collected, gathered, replies⟩ := ih
    refine ⟨item :: collected, by simp [gathered], ?_⟩
    split at replies
    · exact congrArg _ replies
    · obtain ⟨others, replies⟩ := replies
      exact ⟨others, congrArg _ replies⟩
  | case3 read kind error results => exact ⟨[], (List.append_nil _).symm, _, rfl⟩

theorem Reply.filterMap_item?_parsed (items : List Item) :
    (items.map parsed).filterMap item? = items := by
  rw [List.filterMap_map]
  exact List.filterMap_some

theorem Reply.filterMap_error?_parsed (items : List Item) :
    (items.map parsed).filterMap error? = [] := by
  rw [List.filterMap_map]
  exact List.filterMap_none items

/-- Where every result is an item, the report has just these items. -/
theorem Report.ofResults_of_parsed {results : List ItemResult} {items : List Item}
    (replies : results.map (·.reply) = items.map .parsed) :
    (ofResults results).items.toList = items ∧ (ofResults results).errors.toList = [] := by
  rw [items_ofResults, errors_ofResults, replies]
  exact ⟨Reply.filterMap_item?_parsed items, Reply.filterMap_error?_parsed items⟩

/-- The first result that is an error is the first error of the report, behind the items before
it. -/
theorem Report.ofResults_of_rejected {results : List ItemResult} {items : List Item}
    {error : ParseError} {others : List Reply}
    (replies : results.map (·.reply) = items.map .parsed ++ .rejected error :: others) :
    items <+: (ofResults results).items.toList ∧
      (ofResults results).errors.toList.head? = some error := by
  rw [items_ofResults, errors_ofResults, replies, List.filterMap_append, List.filterMap_append,
    Reply.filterMap_item?_parsed, Reply.filterMap_error?_parsed]
  exact ⟨List.prefix_append _ _, rfl⟩

namespace Session

/-- A text is a program exactly if a session over it reports no error, and then both have the same
items. Otherwise the error of the program is the first one of the session, and before it the session
has replied with the items that had been read of the program. -/
theorem parseProgram_agrees (settings : Settings) (text : String) (interactive : Bool) :
    let session := ofText settings text interactive
    let collected := (readProgram settings text).1.items.toList
    ∃ report final, session.run .unlimited = (.ok report, final) ∧
      (∀ items, parseProgram settings text = .ok items ↔
        report.errors = #[] ∧ report.items.toList = items) ∧
      ∀ error, parseProgram settings text = .error error →
        report.errors.toList.head? = some error ∧ collected <+: report.items.toList ∧
        ∃ first middle next, session.start = (.ok (), first) ∧
          Takes first (collected.map .parsed) middle ∧
          middle.turn = (.ok (some (.rejected error)), next) := by
  intro session collected
  obtain ⟨first, last, final, started, takes, _, ran, _⟩ := run_ofText settings text interactive
  obtain ⟨found, gathered, replies⟩ :=
    ProgramReading.exists_replies #[] (resultsOfText settings text)
  rw [← readProgram_eq_ofResults] at gathered replies
  obtain rfl : collected = found := gathered
  refine ⟨_, final, ran, ?_⟩
  cases stopped : (readProgram settings text).1.error? with
  | none =>
    have parsed : parseProgram settings text = .ok collected := by
      rw [parseProgram, ProgramReading.result, stopped]
    rw [stopped] at replies
    obtain ⟨items, errors⟩ := Report.ofResults_of_parsed replies
    refine ⟨fun others => ?_, fun error failed => by rw [parsed] at failed; contradiction⟩
    rw [parsed, items, Except.ok.injEq]
    exact ⟨fun same => ⟨Array.toList_inj.mp errors, same⟩, And.right⟩
  | some error =>
    have failed : parseProgram settings text = .error error := by
      rw [parseProgram, ProgramReading.result, stopped]
    rw [stopped] at replies
    obtain ⟨others, replies⟩ := replies
    obtain ⟨items, errors⟩ := Report.ofResults_of_rejected replies
    rw [replies] at takes
    obtain ⟨middle, front, behind⟩ := takes.split
    cases behind with
    | cons turned _ =>
      refine ⟨fun others => ?_, fun error' failed' => ?_⟩
      · rw [failed]
        constructor
        · intro impossible
          contradiction
        · rintro ⟨none, _⟩
          rw [none] at errors
          contradiction
      · rw [failed] at failed'
        obtain rfl := Except.error.inj failed'
        exact ⟨errors, items, first, middle, _, started, front, turned⟩

end Session

end OpLang
