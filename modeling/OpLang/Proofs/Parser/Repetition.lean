import OpLang.Proofs.Grammar.Repetition
import OpLang.Proofs.Lexer.Order
import OpLang.Proofs.Parser.Permission
import OpLang.Proofs.Parser.Soundness

/-! # Where a program without the permission to repeat parameters stops

Up to a repetition a program has been read as parts with distinct parameters, and then as the
beginning of a prototype. So the parameter that is refused repeats one of its prototype, and no
token before it repeats any. With the permission the program is read past it: it is accepted, and
then its items have the repetition, or it fails further on.
-/

namespace OpLang

open Grammar

namespace Parser

variable {τ : Type} [TokenSource τ] {parser rest : Parser τ} {error : ParseError} {name : String}

/-- Between two states a reserved word and the beginning of its prototype were read, up to a
parameter that repeats one of those before it. -/
def StopsAt (name : String) (parser rest : Parser τ) : Prop :=
  ∃ (word : Token) (function : String) (names : List String), IsWord word ∧ names.Nodup ∧
    name ∈ names ∧ parser.upcoming =
      word :: .name function :: .symbol '(' :: (names.map .name ++ rest.upcoming)

theorem parameters_stops {parser : Parser τ} {read : Array String}
    (strict : parser.settings.allowRepeatedParameters = false) (nodup : read.toList.Nodup)
    (answer : parser.parameters read = (.error error, rest))
    (repetition : error.fault = .repeatedParameter name) :
    ∃ names : List String, (read.toList ++ names).Nodup ∧ name ∈ read.toList ++ names ∧
      parser.advance.upcoming = names.map .name ++ rest.upcoming := by
  fun_induction parameters read parser with
  | case1 read parser found current repeated =>
    cases answer
    obtain rfl := ParseFault.repeatedParameter.inj repetition
    refine ⟨[], by simpa using nodup, ?_, rfl⟩
    simpa using (Bool.and_eq_true_iff.mp repeated).2
  | case2 read parser found current fresh ih =>
    have longer := allowed_push (fun _ => nodup) fresh strict
    obtain ⟨names, distinct, member, upcoming⟩ := ih strict longer answer
    rw [Array.toList_push, List.append_assoc, List.singleton_append] at distinct member
    refine ⟨found :: names, distinct, member, ?_⟩
    rw [upcoming_of_current current (by simp), upcoming]
    rfl
  | case3 => simp at answer
  | case4 | case5 | case6 | case7 | case8 =>
    cases answer
    contradiction

theorem prototype_stops (strict : parser.settings.allowRepeatedParameters = false)
    (answer : parser.prototype = (.error error, rest))
    (repetition : error.fault = .repeatedParameter name) :
    ∃ (function : String) (names : List String), names.Nodup ∧ name ∈ names ∧
      parser.upcoming = .name function :: .symbol '(' :: (names.map .name ++ rest.upcoming) := by
  unfold Parser.prototype at answer
  split at answer
  · next function current =>
    split at answer
    · next opened =>
      have failed := (Outcome.map_eq_error_iff _).mp answer
      have entered : parser.advance.settings.allowRepeatedParameters = false := strict
      obtain ⟨names, nodup, member, upcoming⟩ :=
        parameters_stops entered List.nodup_nil failed repetition
      refine ⟨function, names, nodup, member, ?_⟩
      rw [upcoming_of_current current (by simp), upcoming_of_current opened (by simp), upcoming]
    · cases answer
      contradiction
  all_goals
    cases answer
    contradiction

theorem expression_not_stops (failed : parser.expression = (.error error, rest)) :
    error.fault ≠ .repeatedParameter name := by
  have ran : Runs .expression parser (.error error, rest) := failed ▸ runs .expression parser
  exact fun repetition => ran.not_isRepetition error rfl ⟨name, repetition⟩

/-- Only prototypes have parameters to repeat. -/
theorem itemHere?_stops {kind : ItemKind}
    (strict : parser.settings.allowRepeatedParameters = false)
    (attempt : parser.itemHere? = (some ⟨kind, .error error⟩, rest))
    (repetition : error.fault = .repeatedParameter name) : StopsAt name parser rest := by
  have behind {word : Token} {entered : Parser τ} (isWord : IsWord word)
      (failed : entered.prototype = (.error error, rest))
      (upcoming : parser.upcoming = word :: entered.upcoming)
      (kept : entered.settings = parser.settings) : StopsAt name parser rest := by
    obtain ⟨function, names, nodup, member, inside⟩ :=
      prototype_stops (kept ▸ strict) failed repetition
    exact ⟨word, function, names, isWord, nodup, member, by rw [upcoming, inside]⟩
  rw [itemHere?_eq_error_iff] at attempt
  split at attempt
  · contradiction
  · next current =>
    obtain ⟨_, failed⟩ := attempt
    rcases Outcome.andThen_eq_error_iff.mp failed with unnamed | ⟨_, middle, _, failed⟩
    · exact behind (.inl rfl) unnamed (upcoming_of_current current (by simp)) rfl
    · exact absurd repetition (expression_not_stops ((Outcome.map_eq_error_iff _).mp failed))
  · next current =>
    exact behind (.inr rfl) attempt.2 (upcoming_of_current current (by simp)) rfl
  all_goals
    exact absurd repetition (expression_not_stops ((Outcome.map_eq_error_iff _).mp attempt.2))

/-- The semicolons at hand are parts of the program. -/
theorem exists_parts_of_skipSemicolons (settings : Settings) (parser : Parser τ) :
    ∃ parts : List Part, (∀ part ∈ parts, part.Fits settings) ∧
      parser.upcoming = programTokens parts ++ parser.skipSemicolons.upcoming := by
  fun_induction skipSemicolons parser with
  | case1 parser current ih =>
    obtain ⟨parts, fits, upcoming⟩ := ih
    refine ⟨.semicolon :: parts, List.forall_mem_cons.mpr ⟨trivial, fits⟩, ?_⟩
    rw [upcoming_of_current current (by simp), upcoming]
    rfl
  | case2 parser => exact ⟨[], by simp, rfl⟩

/-- A program that stops at a repetition has been read as parts and the beginning of a prototype. -/
theorem program_stops {read : Array Item}
    (strict : parser.settings.allowRepeatedParameters = false)
    (answer : parser.program read = (.error error, rest))
    (repetition : error.fault = .repeatedParameter name) :
    ∃ (parts : List Part) (middle : Parser τ), (∀ part ∈ parts, part.Fits parser.settings) ∧
      parser.upcoming = programTokens parts ++ middle.upcoming ∧ StopsAt name middle rest := by
  fun_induction items read parser with
  | case1 read parser left attempt =>
    rw [program_of_none attempt] at answer
    cases answer
  | case2 read parser kind item left attempt ih =>
    rw [program_of_ok attempt] at answer
    obtain ⟨semicolons, semicolonsFit, skipped⟩ :=
      exists_parts_of_skipSemicolons parser.settings parser
    have attempted := attempt ▸ attempts_item? parser
    cases attempted with
    | parsed passes reads =>
      have kept : left.settings = parser.settings :=
        passes.settings_eq.trans (settings_skipSemicolons parser)
      obtain ⟨clause, fits, _, _, upcoming⟩ := reads
      rw [settings_skipSemicolons] at fits
      obtain ⟨parts, middle, partsFit, onwards, stops⟩ := ih (kept ▸ strict) answer
      rw [kept] at partsFit
      refine ⟨semicolons ++ .clause clause :: parts, middle, ?_, ?_, stops⟩
      · exact List.forall_mem_append.mpr ⟨semicolonsFit, List.forall_mem_cons.mpr ⟨fits, partsFit⟩⟩
      · rw [skipped, upcoming, onwards]
        simp [programTokens, Part.tokens]
  | case3 read parser kind found left attempt =>
    rw [program_of_error attempt] at answer
    cases answer
    obtain ⟨semicolons, semicolonsFit, skipped⟩ :=
      exists_parts_of_skipSemicolons parser.settings parser
    have started : parser.skipSemicolons.settings.allowRepeatedParameters = false := by
      rw [settings_skipSemicolons]
      exact strict
    exact ⟨semicolons, _, semicolonsFit, skipped, itemHere?_stops started attempt repetition⟩

/-- The token at hand is the first that repeats a parameter of its prototype. -/
theorem StopsAt.first {settings : Settings} {parts : List Part} {middle : Parser τ}
    {front : List Token} (stops : StopsAt name middle rest)
    (strict : settings.allowRepeatedParameters = false)
    (fits : ∀ part ∈ parts, part.Fits settings)
    (whole : front ++ rest.upcoming = programTokens parts ++ middle.upcoming) :
    Repeats front (.name name) ∧
      ∀ earlier token behind, front = earlier ++ token :: behind → ¬ Repeats earlier token := by
  obtain ⟨word, function, names, isWord, nodup, member, upcoming⟩ := stops
  have same : front = programTokens parts ++
      word :: .name function :: .symbol '(' :: (names.map .name ++ []) := by
    refine List.append_cancel_right (whole.trans ?_)
    rw [upcoming]
    simp
  have distinct : Distinct front := by
    rw [same]
    exact (Distinct.prototype word function nodup (by simp) distinct_nil).program strict fits
  constructor
  · exact ⟨names, name, ⟨programTokens parts, word, function, isWord, by simpa using same⟩,
      member, rfl⟩
  · exact fun earlier token behind split => distinct.not_repeats split

end Parser

/-- A name of the text at a place repeats a parameter of its prototype, and no token before it
does. -/
def FirstRepetition (text : String) (name : String) (location : Location) : Prop :=
  ∃ front others : List LocatedToken,
    locatedTokens text = front ++ ⟨.name name, location⟩ :: others ∧
    Repeats (front.map (·.token)) (.name name) ∧
    ∀ earlier token behind, front = earlier ++ token :: behind →
      ¬ Repeats (earlier.map (·.token)) token.token

namespace Parser

theorem holds_permitting {τ : Type} [TokenSource τ] {parser : Parser τ} {event : Event}
    {tokens : List LocatedToken} {finish : Location}
    (holds : (parser.record event).Holds tokens finish) :
    parser.permitting.Holds tokens finish := by
  refine ⟨fun call => ?_, holds.found⟩
  rw [← holds.stream]
  cases call <;> rfl

variable {operators : Operators} {text : String} {error : ParseError} {name : String}
  {rest : Parser (Lexer (List Char))}

/-- Where a text is read up to a repetition, this is the first one. -/
theorem first_of_program
    (answer : (parserOfText ⟨operators, false⟩ text).advance.program #[] = (.error error, rest))
    (repetition : error.fault = .repeatedParameter name) :
    FirstRepetition text name error.location := by
  obtain ⟨⟨passed, passes⟩, offender⟩ := answer ▸ program_reachedFrom #[] _
  obtain ⟨parts, middle, fits, upcoming, stops⟩ := program_stops rfl answer repetition
  have here : rest.here = ⟨.name name, error.location⟩ := by
    rw [show rest.here = error.offender from offender, ParseError.offender, repetition]
    rfl
  have found : rest.current ≠ .endOfInput := by
    rw [show rest.current = .name name from congrArg (·.token) here]
    simp
  obtain ⟨repeats, first⟩ := stops.first rfl fits (passes.upcoming_eq.symm.trans upcoming)
  refine ⟨passed, rest.advance.ahead, ?_, repeats, ?_⟩
  · rw [← ahead_parserOfText, ← here, ← ahead_of_found found]
    exact passes.ahead_eq
  · rintro earlier token behind rfl
    apply first
    rw [List.map_append, List.map_cons]

/-- Reading that only goes on behind the parameter fails further on in the text, if it fails. -/
theorem location_lt_of_stopped {settings : Settings} {before : Parser (Lexer (List Char))}
    {event : Event} {passed : List LocatedToken} {onwards : Outcome (Lexer (List Char)) (List Item)}
    (passes : Passes (parserOfText settings text).advance passed (before.record event))
    (found : before.current ≠ .endOfInput)
    (reached : onwards.ReachedFrom before.permitting.advance) (failed : onwards.1 = .error error) :
    before.location < error.location := by
  obtain ⟨segments, finish, cut⟩ := exists_segmented text.toList
  have holds : (parserOfText settings text).advance.Holds (locate [] segments)
      (.behind text.toList) := holds_ofSource settings (CharSource.ahead_list _) cut
  have ordered : Ordered (locate [] segments) (.behind text.toList) := cut.ordered []
  obtain ⟨others, whole, held⟩ := holds.passes passes
  rw [whole] at ordered
  obtain ⟨⟨further, onward⟩, offender⟩ := reached
  rcases onwards with ⟨found' | items, rest⟩
  · obtain rfl : found' = error := by simpa using failed
    have last : rest.location = found'.location := congrArg (·.location) offender
    rw [← last]
    exact (holds_permitting held).location_lt ordered.of_append found onward
  · contradiction

/-- The items of a strict program have distinct parameters. -/
theorem nodup_of_parseProgram {items : List Item}
    (accepted : parseProgram ⟨operators, false⟩ text = .ok items) :
    ∀ item ∈ items, item.prototype.parameters.Nodup := by
  intro item member
  obtain ⟨kind, handed⟩ := handed_of_parseProgram accepted item member
  exact handed.sound.distinct rfl

end Parser

/-- Without the permission to repeat parameters the same programs are accepted, except for those
with a repetition. Any other error is the same with the permission. Where a repetition is refused it
is the first one of the text, and with the permission nothing is wrong up to there. -/
theorem parseProgram_restricts (operators : Operators) (text : String) :
    (∀ items, parseProgram ⟨operators, false⟩ text = .ok items ↔
      parseProgram ⟨operators, true⟩ text = .ok items ∧
        ∀ item ∈ items, item.prototype.parameters.Nodup) ∧
    (∀ error, parseProgram ⟨operators, false⟩ text = .error error →
      (∀ name, error.fault ≠ .repeatedParameter name) →
        parseProgram ⟨operators, true⟩ text = .error error) ∧
    ∀ name location, parseProgram ⟨operators, false⟩ text =
        .error ⟨.repeatedParameter name, location⟩ →
      FirstRepetition text name location ∧
        ∀ error, parseProgram ⟨operators, true⟩ text = .error error →
          location < error.location := by
  let start := (parserOfText ⟨operators, false⟩ text).advance
  have strict : parseProgram ⟨operators, false⟩ text = (start.program #[]).1 := rfl
  have lenient : parseProgram ⟨operators, true⟩ text = (start.permitting.program #[]).1 := rfl
  rcases (Parser.program_restricts #[] start rfl).same_or_stopped with
    ⟨permitted, other⟩ | ⟨found, before, event, answer, repetition, reached, kept⟩
  · have same : parseProgram ⟨operators, true⟩ text = parseProgram ⟨operators, false⟩ text := by
      rw [lenient, permitted, strict]
      rfl
    rw [same]
    refine ⟨fun items => ?_, fun error failed _ => failed, ?_⟩
    · constructor
      · intro accepted
        exact ⟨accepted, Parser.nodup_of_parseProgram accepted⟩
      · rintro ⟨accepted, _⟩
        exact accepted
    · intro name location failed
      exact absurd ⟨name, rfl⟩ (other _ (strict.symm.trans failed))
  · have stopped : parseProgram ⟨operators, false⟩ text = .error found := by rw [strict, answer]
    rw [stopped, lenient]
    refine ⟨fun items => ?_, ?_, ?_⟩
    · constructor
      · rintro ⟨⟩
      · rintro ⟨accepted, distinct⟩
        obtain ⟨item, member, repeats⟩ := kept items accepted
        exact absurd (distinct item member) repeats
    · rintro _ ⟨⟩ noRepetition
      obtain ⟨name, fault⟩ := repetition
      exact absurd fault (noRepetition name)
    · rintro name location ⟨⟩
      refine ⟨Parser.first_of_program answer rfl, fun error failed => ?_⟩
      obtain ⟨⟨passed, passes⟩, offender⟩ := answer ▸ Parser.program_reachedFrom #[] start
      have here : before.here = ⟨.name name, location⟩ := offender
      have found : before.current ≠ .endOfInput := by
        rw [show before.current = .name name from congrArg (·.token) here]
        simp
      have place : before.location = location := congrArg (·.location) here
      rw [← place]
      exact Parser.location_lt_of_stopped passes found reached failed

/-- The first `x` of `f` is repeated by no parameter of `g`; with the permission the missing
parenthesis is found behind the repetition. -/
theorem parseProgram_restricts_of_unclosed :
    let text := "extern f(x y)\nextern g(z x z extern"
    parseProgram ⟨.standard, false⟩ text = .error ⟨.repeatedParameter "z", ⟨2, 14⟩⟩ ∧
      FirstRepetition text "z" ⟨2, 14⟩ ∧
      ∃ error, parseProgram ⟨.standard, true⟩ text = .error error ∧
        (⟨2, 14⟩ : Location) < error.location := by
  intro text
  have answer (strict : Bool) (error : ParseError)
      (computed : (match parseProgram ⟨.standard, strict⟩ text with
        | .ok _ => none | .error found => some found) = some error) :
      parseProgram ⟨.standard, strict⟩ text = .error error := by
    cases read : parseProgram ⟨.standard, strict⟩ text with
    | ok items => simp [read] at computed
    | error found => simpa [read] using computed
  have refused := answer false ⟨.repeatedParameter "z", ⟨2, 14⟩⟩ (by decide +kernel)
  have unclosed := answer true ⟨.unexpected .parametersEnd .declare, ⟨2, 16⟩⟩ (by decide +kernel)
  obtain ⟨first, later⟩ := (parseProgram_restricts .standard text).2.2 _ _ refused
  exact ⟨refused, first, _, unclosed, later _ unclosed⟩

end OpLang
