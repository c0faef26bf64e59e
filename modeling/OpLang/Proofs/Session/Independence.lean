import OpLang.Proofs.Session.Results

/-! # Items do not depend on what stands in front of them

A semicolon that is no operator separates two texts for good: a session over both reports and shows
what it does over the first one, and then what it does over the second one, with the errors at the
places where they are found now. Only an error at the end of the first text has to be excluded,
because that text does not end any more.
-/

namespace OpLang

theorem ItemResult.item?_moved (move : Location → Location) (result : ItemResult) :
    (result.moved move).reply.item? = result.reply.item? := by
  rcases result with ⟨kind, error | item⟩ <;> rfl

theorem ItemResult.error?_moved (move : Location → Location) (result : ItemResult) :
    (result.moved move).reply.error? = result.reply.error?.map (·.moved move) := by
  rcases result with ⟨kind, error | item⟩ <;> rfl

namespace Report

variable (move : Location → Location) (first second : List ItemResult)

theorem items_append_moved :
    (ofResults (first ++ second.map (·.moved move))).items =
      (ofResults first).items ++ (ofResults second).items := by
  apply Array.toList_inj.mp
  simp only [Array.toList_append, items_ofResults, List.map_append, List.filterMap_append,
    List.map_map, List.filterMap_map, Function.comp_def, ItemResult.item?_moved]

theorem errors_append_moved :
    (ofResults (first ++ second.map (·.moved move))).errors =
      (ofResults first).errors ++ (ofResults second).errors.map (·.moved move) := by
  apply Array.toList_inj.mp
  simp only [Array.toList_append, Array.toList_map, errors_ofResults, List.map_append,
    List.filterMap_append, List.map_map, List.filterMap_map, List.map_filterMap,
    Function.comp_def, ItemResult.error?_moved]

end Report

/-- A semicolon on a line of its own adds the results of the text behind it, if no error is found at
the end of the text in front. -/
theorem resultsOfText_joined {settings : Settings} {first : String}
    (spares : settings.operators.Spares [';'])
    (inside : ∀ result ∈ resultsOfText settings first, ∀ error, result.result = .error error →
      error.offender.token ≠ .endOfInput) (second : String) :
    resultsOfText settings (first ++ "\n;\n" ++ second) = resultsOfText settings first ++
      (resultsOfText settings second).map
        (·.moved (.lower (first.toList.count '\n' + 2))) := by
  obtain ⟨segments, finish, cut⟩ := exists_segmented first.toList
  obtain ⟨segments', finish', cut'⟩ := exists_segmented second.toList
  obtain ⟨last, whole, joint, tokens⟩ := exists_segmented_joined cut cut'
  have chars : (first ++ "\n;\n" ++ second).toList = joined first.toList second.toList := by
    simp [joined]
  have ahead (text : String) := CharSource.ahead_list text.toList
  have holds := Parser.holds_ofSource settings ((ahead _).trans chars) joint
  rw [tokens, Location.behind_joined] at holds
  exact Parser.results_append spares (Parser.holds_ofSource settings (ahead first) cut)
    (Parser.holds_ofSource settings (ahead second) cut') holds rfl rfl rfl inside

theorem ItemResult.mem_errors_of_mem {results : List ItemResult} {result : ItemResult}
    {error : ParseError} (member : result ∈ results) (fails : result.result = .error error) :
    error ∈ (Report.ofResults results).errors := by
  rw [← Array.mem_toList_iff, Report.errors_ofResults]
  refine List.mem_filterMap.mpr ⟨result.reply, List.mem_map_of_mem member, ?_⟩
  rw [reply, fails]
  rfl

namespace Session

/-- A session that does not prompt reports and shows this over a text, and its sink refuses
nothing. -/
def Answers (settings : Settings) (text : String) (report : Report) (output : String) : Prop :=
  ∃ final, (ofText settings text false).run .unlimited = (.ok report, final) ∧
    final.shown = output

theorem answers_resultsOfText (settings : Settings) (text : String) :
    Answers settings text (.ofResults (resultsOfText settings text))
      (.join ((resultsOfText settings text).map (·.line))) := by
  obtain ⟨_, _, final, _, _, _, ran, shown⟩ := run_ofText settings text false
  refine ⟨final, ran, ?_⟩
  simpa [prompts] using shown

/-- Where no error of a text is at its end, a semicolon on a line of its own and another text add
the items, the errors and the output that the other text has by itself, except that its errors are
as many lines lower as are in front. -/
theorem answers_joined (settings : Settings) (first second : String)
    (spares : settings.operators.Spares [';'])
    (inside : ∀ report output, Answers settings first report output →
      ∀ error ∈ report.errors, error.offender.token ≠ .endOfInput) :
    let lower := Location.lower (first.toList.count '\n' + 2)
    ∃ report output results whole, Answers settings first report output ∧
      Answers settings second (.ofResults results) (.join (results.map (·.line))) ∧
      Answers settings (first ++ "\n;\n" ++ second) whole
        (output ++ .join (results.map fun result => (result.moved lower).line)) ∧
      whole.items = report.items ++ (Report.ofResults results).items ∧
      whole.errors = report.errors ++ (Report.ofResults results).errors.map (·.moved lower) := by
  intro lower
  have front := answers_resultsOfText settings first
  have split := resultsOfText_joined spares (fun result member error fails =>
    inside _ _ front error (ItemResult.mem_errors_of_mem member fails)) second
  have both := answers_resultsOfText settings (first ++ "\n;\n" ++ second)
  rw [split, List.map_append, String.join_append, List.map_map] at both
  exact ⟨_, _, _, _, front, answers_resultsOfText settings second, both,
    Report.items_append_moved lower _ _, Report.errors_append_moved lower _ _⟩

/-- The first text has an error and ends in a comment, and so does the second one. -/
theorem answers_joined_of_comments :
    let first := "extern f(x)\ndef ) # x"
    let second := "x y\n)) # y"
    let lower := Location.lower 3
    Settings.standard.operators.Spares [';'] ∧
      (∀ report output, Answers .standard first report output →
        ∀ error ∈ report.errors, error.offender.token ≠ .endOfInput) ∧
      ∃ report output results whole, Answers .standard first report output ∧
        Answers .standard second (.ofResults results) (.join (results.map (·.line))) ∧
        Answers .standard (first ++ "\n;\n" ++ second) whole
          (output ++ .join (results.map fun result => (result.moved lower).line)) ∧
        whole.items = report.items ++ (Report.ofResults results).items ∧
        whole.errors =
          report.errors ++ (Report.ofResults results).errors.map (·.moved lower) := by
  intro first second lower
  have spares : Settings.standard.operators.Spares [';'] := by decide +kernel
  have found : ((ofText .standard first false).run .unlimited).1.toOption.map (·.errors.toList) =
      some [⟨.unexpected .functionName (.symbol ')'), ⟨2, 5⟩⟩] := by
    decide +kernel
  have inside : ∀ report output, Answers .standard first report output →
      ∀ error ∈ report.errors, error.offender.token ≠ .endOfInput := by
    rintro report output ⟨final, ran, _⟩ error member
    rw [ran] at found
    have only : report.errors.toList = [⟨.unexpected .functionName (.symbol ')'), ⟨2, 5⟩⟩] :=
      Option.some.inj found
    rw [← Array.mem_toList_iff, only, List.mem_singleton] at member
    rw [member]
    decide
  have lines : first.toList.count '\n' + 2 = 3 := by decide +kernel
  have both := answers_joined .standard first second spares inside
  rw [lines] at both
  exact ⟨spares, inside, both⟩

end Session

end OpLang
