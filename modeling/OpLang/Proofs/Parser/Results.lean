import Mathlib.Data.List.Forall2
import OpLang.Proofs.Lexer.Relocation
import OpLang.Proofs.Parser.Twins

/-! # The results of an input

Reading goes on behind the offender of an error, so an input has as many results as it has items and
errors. They depend on the stream of tokens and on the settings alone. If the tokens stand at other
places, so do the errors, and nothing else changes; and behind a semicolon an input has the results
that it would have if it began there. A program is read no further than its first error.
-/

namespace OpLang

/-- The error at another place. -/
def ParseError.moved (move : Location → Location) (error : ParseError) : ParseError :=
  { error with location := move error.location }

/-- Faults that name the same token are the same. -/
theorem ParseFault.Twins.eq {fault other : ParseFault} (twins : fault.Twins other)
    (offender : other.offender = fault.offender) : other = fault := by
  cases twins with
  | unexpected => exact congrArg _ offender
  | repeatedParameter => rfl

/-- An error whose offender stands at another place is the same error at that place. -/
theorem ParseError.Twins.eq_moved {like : Likeness} {move : Location → Location}
    {error other : ParseError} (twins : error.Twins like other)
    (offender : other.offender = error.offender.moved move) : other = error.moved move := by
  obtain ⟨token, place⟩ := LocatedToken.mk.inj offender
  calc other = ⟨other.fault, other.location⟩ := rfl
    _ = error.moved move := congrArg₂ ParseError.mk (twins.fault.eq token) place

namespace ItemResult

/-- The result with its error at another place. -/
def moved (move : Location → Location) (result : ItemResult) : ItemResult :=
  { result with result := result.result.mapError (·.moved move) }

/-- The parser that reads on: an item has been used up, while an offender is still at hand. -/
def onwards {τ : Type} [TokenSource τ] (result : ItemResult) (rest : Parser τ) : Parser τ :=
  match result.result with
  | .ok _ => rest
  | .error _ => rest.advance

/-- The same item, or errors for the same reason at tokens that stand for each other. -/
inductive Twins (like : Likeness) : ItemResult → ItemResult → Prop where
  | ok (kind : ItemKind) (item : Item) : Twins like ⟨kind, .ok item⟩ ⟨kind, .ok item⟩
  | error (kind : ItemKind) {error other : ParseError} (errors : error.Twins like other) :
    Twins like ⟨kind, .error error⟩ ⟨kind, .error other⟩

@[simp] theorem moved_id (result : ItemResult) : result.moved id = result := by
  rcases result with ⟨kind, error | item⟩ <;> rfl

theorem Twins.eq_moved {like : Likeness} {move : Location → Location} {result other : ItemResult}
    (twins : result.Twins like other)
    (moves : ∀ error found, result.result = .error error → like.pairs error.offender found →
      found = error.offender.moved move) : other = result.moved move := by
  cases twins with
  | ok => rfl
  | @error kind error other errors =>
    exact congrArg (fun error => ItemResult.mk kind (.error error))
      (errors.eq_moved (moves error other.offender rfl errors.offender))

theorem eq_map_moved {like : Likeness} {move : Location → Location}
    {results found : List ItemResult} (stands : List.Forall₂ (Twins like) results found)
    (moves : ∀ result ∈ results, ∀ error found, result.result = .error error →
      like.pairs error.offender found → found = error.offender.moved move) :
    found = results.map (·.moved move) := by
  induction stands with
  | nil => rfl
  | cons twins _ ih =>
    obtain ⟨first, others⟩ := List.forall_mem_cons.mp moves
    rw [List.map_cons, ih others, twins.eq_moved first]

end ItemResult

namespace Parser

variable {τ τ' : Type} [TokenSource τ] [TokenSource τ'] {parser rest : Parser τ}
  {other : Parser τ'} {result : ItemResult}

theorem size_onwards_lt (attempt : parser.item? = (some result, rest)) :
    (result.onwards rest).size < parser.size := by
  rcases result with ⟨kind, error | item⟩
  · exact item?_size_advance_lt attempt
  · exact item?_size_lt attempt

/-- What becomes of the items of an input one after the other, errors included. -/
def results (parser : Parser τ) : List ItemResult :=
  match _ : parser.item? with
  | (none, _) => []
  | (some result, rest) => result :: results (result.onwards rest)
termination_by parser.size
decreasing_by exact size_onwards_lt ‹_›

theorem results_of_none (attempt : parser.item? = (none, rest)) : parser.results = [] := by
  rw [results]
  split <;> simp_all

theorem results_of_some (attempt : parser.item? = (some result, rest)) :
    parser.results = result :: (result.onwards rest).results := by
  conv => lhs; rw [results]
  split <;> simp_all

theorem results_of_item?_eq {later : Parser τ} (same : parser.item? = later.item?) :
    parser.results = later.results := by
  cases attempt : later.item? with
  | mk result? rest =>
    cases result? with
    | none => rw [results_of_none attempt, results_of_none (same.trans attempt)]
    | some result => rw [results_of_some attempt, results_of_some (same.trans attempt)]

theorem results_of_finished (finished : parser.current = .endOfInput) : parser.results = [] := by
  apply @results_of_none _ _ _ parser
  rw [item?_of_other (by rw [finished]; simp), itemHere?, finished]

theorem exists_of_results_nil (nothing : parser.results = []) :
    ∃ rest, parser.item? = (none, rest) := by
  cases attempt : parser.item? with
  | mk result? rest =>
    cases result? with
    | none => exact ⟨rest, rfl⟩
    | some result => rw [results_of_some attempt] at nothing; contradiction

theorem exists_of_results_cons {others : List ItemResult}
    (split : parser.results = result :: others) :
    ∃ rest, parser.item? = (some result, rest) ∧ (result.onwards rest).results = others := by
  cases attempt : parser.item? with
  | mk result? rest =>
    cases result? with
    | none => rw [results_of_none attempt] at split; contradiction
    | some found =>
      rw [results_of_some attempt] at split
      obtain ⟨rfl, rfl⟩ := List.cons.inj split
      exact ⟨rest, rfl, rfl⟩

theorem Settles.item? {result? : Option ItemResult} (settles : parser.Settles)
    (attempt : parser.item? = (result?, rest)) : rest.Settles :=
  (⟨Settles.advance, fun log settles => settles.log log⟩ : Keeps Settles).item? settles attempt

/-- A search that finds nothing has come to the end of input. -/
theorem current_of_nothing (attempt : parser.item? = (none, rest)) :
    rest.current = .endOfInput := by
  have attempted := attempts_item? parser
  rw [attempt] at attempted
  cases attempted with
  | finished current => exact current

/-- Where no item is found, there is none. -/
theorem results_behind_none (attempt : parser.item? = (none, rest)) : rest.results = [] :=
  results_of_finished (current_of_nothing attempt)

/-- A semicolon in front of an input changes nothing. -/
theorem results_of_semicolon (current : parser.current = .symbol ';') :
    parser.results = parser.advance.results :=
  results_of_item?_eq (item?_of_semicolon current)

/-! ### Twins -/

/-- At the end of the first input the other one has an end or a semicolon to pass. -/
theorem results_of_end {like : Likeness} (twins : parser.Twins like other)
    (finished : parser.current = .endOfInput) : other.results = other.advance.results := by
  rcases twins.current_of_finished finished with ⟨current, ends⟩ | ⟨current, _⟩
  · have behind : other.advance.here = like.behind 0 := congrFun (twins.behind finished) 0
    have stays : other.advance.current = .endOfInput := (congrArg (·.token) behind).trans (ends 0)
    rw [results_of_finished current, results_of_finished stays]
  · exact results_of_semicolon current

/-- The results of an input stand for the first results of one that is alike. The others are those
of what the other input has behind the end of the first. -/
theorem results_twins {like : Likeness} (twins : parser.Twins like other) :
    ∃ found, ∃ behind : Parser τ', List.Forall₂ (ItemResult.Twins like) parser.results found ∧
      behind.stream = like.behind ∧ behind.settings = like.otherSettings ∧
      other.results = found ++ behind.results := by
  fun_induction results parser generalizing other with
  | case1 parser rest attempt =>
    rcases item?_twins twins with ⟨rest', other', attempt', same, ended, finished⟩ |
      ⟨_, _, _, attempt', _⟩
    · refine ⟨[], other'.advance, .nil, ended.behind finished, ended.otherSettings, ?_⟩
      rw [results_of_item?_eq same, results_of_end ended finished, List.nil_append]
    · cases attempt.symm.trans attempt'
  | case2 parser result rest attempt ih =>
    rcases item?_twins twins with ⟨_, _, attempt', _⟩ |
      ⟨kind, outcome, otherOutcome, attempt', otherAttempt, outcomes⟩
    · cases attempt.symm.trans attempt'
    · cases attempt.symm.trans attempt'
      rw [results_of_some otherAttempt]
      cases outcomes with
      | ok item ended =>
        obtain ⟨found, behind, others, stream, settings, split⟩ := ih ended
        exact ⟨_, behind, .cons (.ok kind item) others, stream, settings, congrArg _ split⟩
      | @error error error' rest rest' errors ended =>
        -- At the end of input there is no offender to pass, but the twin passes a semicolon there.
        by_cases finished : rest.current = .endOfInput
        · have nothing : rest.advance.results = [] :=
            results_of_finished (ended.settles.current_advance finished)
          refine ⟨[_], rest'.advance, .cons (.error kind errors) ?_, ended.behind finished,
            ended.otherSettings, rfl⟩
          change List.Forall₂ _ rest.advance.results []
          rw [nothing]
          exact .nil
        · obtain ⟨found, behind, others, stream, settings, split⟩ := ih (ended.advance finished)
          exact ⟨_, behind, .cons (.error kind errors) others, stream, settings,
            congrArg _ split⟩

/-! ### Tokens at other places -/

/-- Inputs with the same tokens, each at a place that follows from the other. -/
def likeMoved (parser : Parser τ) (other : Parser τ') (move : Location → Location)
    (symbols : Char → Prop) (finish : Location)
    (repeated : other.settings.allowRepeatedParameters = parser.settings.allowRepeatedParameters)
    (order : parser.settings.operators.SameOrder symbols other.settings.operators) : Likeness where
  settings := parser.settings
  otherSettings := other.settings
  pairs token found :=
    found = token.moved move ∧ ∀ char, token.token = .symbol char → symbols char
  behind _ := ⟨.endOfInput, finish⟩
  symbols := symbols
  same _ _ pair _ := congrArg (·.token) pair.1
  ends _ _ pair finished := .inl ⟨(congrArg (·.token) pair.1).trans finished, fun _ => rfl⟩
  occurs _ _ char pair symbol := pair.2 char symbol
  repeated := repeated
  order := order

variable {tokens : List LocatedToken} {finish : Location} {move : Location → Location}
  {symbols : Char → Prop}

theorem twins_moved (holds : parser.Holds tokens finish)
    (others : other.Holds (tokens.map (·.moved move)) (move finish))
    (occurs : ∀ token ∈ tokens, ∀ char, token.token = .symbol char → symbols char)
    (repeated : other.settings.allowRepeatedParameters = parser.settings.allowRepeatedParameters)
    (order : parser.settings.operators.SameOrder symbols other.settings.operators) :
    parser.Twins (likeMoved parser other move symbols (move finish) repeated order) other := by
  refine ⟨rfl, rfl, tokens, finish, holds, fun call inside => ?_, fun call => ?_⟩
  · rw [holds.stream, others.stream, List.getElem?_map]
    cases found : tokens[call]? with
    | none => exact ⟨rfl, fun char symbol => by simp at symbol⟩
    | some token => exact ⟨rfl, occurs token (List.mem_of_getElem? found)⟩
  · rw [others.stream, List.getElem?_eq_none (by rw [List.length_map]; omega)]
    rfl

/-- Tokens at other places lead to the same results with their errors at those places, even by other
settings, as long as these put the operators among the tokens in the same order. -/
theorem results_moved (holds : parser.Holds tokens finish)
    (others : other.Holds (tokens.map (·.moved move)) (move finish))
    (occurs : ∀ token ∈ tokens, ∀ char, token.token = .symbol char → symbols char)
    (repeated : other.settings.allowRepeatedParameters = parser.settings.allowRepeatedParameters)
    (order : parser.settings.operators.SameOrder symbols other.settings.operators) :
    other.results = parser.results.map (·.moved move) := by
  obtain ⟨found, behind, stands, stream, _, split⟩ :=
    results_twins (twins_moved holds others occurs repeated order)
  have ended : behind.current = .endOfInput := congrArg (·.token) (congrFun stream 0)
  rw [split, results_of_finished ended, List.append_nil]
  exact ItemResult.eq_map_moved stands fun _ _ _ _ _ pair => pair.1

/-- Settings that put the operators of an input in the same order lead to the same results. -/
theorem results_of_sameOrder (holds : parser.Holds tokens finish)
    (others : other.Holds tokens finish)
    (occurs : ∀ token ∈ tokens, ∀ char, token.token = .symbol char → symbols char)
    (repeated : other.settings.allowRepeatedParameters = parser.settings.allowRepeatedParameters)
    (order : parser.settings.operators.SameOrder symbols other.settings.operators) :
    other.results = parser.results := by
  have same : tokens.map (LocatedToken.moved id) = tokens := List.map_id tokens
  rw [← same] at others
  simpa using results_moved holds others occurs repeated order

/-- Results follow from the stream and the settings. -/
theorem results_congr (settles : parser.Settles) (stream : other.stream = parser.stream)
    (settings : other.settings = parser.settings) : other.results = parser.results := by
  obtain ⟨tokens, finish, holds⟩ := settles
  have others : other.Holds tokens finish := ⟨fun call => by rw [stream, holds.stream], holds.found⟩
  exact results_of_sameOrder holds others (fun _ _ _ _ => trivial) (by rw [settings])
    (settings ▸ .refl (fun _ => True) parser.settings.operators)

/-! ### Inputs one behind the other -/

/-- An input and one that has a semicolon and more tokens where the first one ends. -/
def likeEnded (settings : Settings) (spares : settings.operators.Spares [';'])
    (behind : Nat → LocatedToken) : Likeness where
  settings := settings
  otherSettings := settings
  pairs token found :=
    (token.token = .endOfInput → found.token = .symbol ';') ∧
      (token.token ≠ .endOfInput → found = token)
  behind := behind
  symbols _ := True
  same _ _ pair inside := congrArg (·.token) (pair.2 inside)
  ends _ _ pair finished := .inr ⟨pair.1 finished, spares ';' (List.mem_singleton_self _)⟩
  occurs _ _ _ _ _ := trivial
  repeated := rfl
  order := .refl _ _

theorem twins_ended {ending : Location} {semicolon : LocatedToken}
    {others : List LocatedToken} (spares : parser.settings.operators.Spares [';'])
    (first : parser.Holds tokens ending)
    (whole : other.Holds (tokens ++ semicolon :: others) finish)
    (separates : semicolon.token = .symbol ';') (known : other.settings = parser.settings) :
    parser.Twins (likeEnded parser.settings spares fun call =>
      (others[call]?).getD ⟨.endOfInput, finish⟩) other := by
  refine ⟨rfl, known, tokens, ending, first, fun call within => ?_, fun call => ?_⟩
  · rw [first.stream, whole.stream]
    rcases Nat.lt_or_eq_of_le within with less | rfl
    · rw [List.getElem?_append_left less, List.getElem?_eq_getElem less]
      exact ⟨fun finished => absurd finished (first.found _ (List.getElem_mem less)), fun _ => rfl⟩
    · rw [List.getElem?_append_right (Nat.le_refl _), List.getElem?_eq_none (Nat.le_refl _),
        Nat.sub_self, List.getElem?_cons_zero, Option.getD_some, Option.getD_none]
      exact ⟨fun _ => separates, fun found => absurd rfl found⟩
  · have past : tokens.length + 1 + call - tokens.length = call + 1 := by omega
    rw [whole.stream, List.getElem?_append_right (by omega), past, List.getElem?_cons_succ]
    rfl

/-- If no error of an input is at its end, a semicolon and another input behind it add the results
of that input. -/
theorem results_append {later : Parser τ} {others : List LocatedToken} {semicolon : LocatedToken}
    {ending : Location} (spares : parser.settings.operators.Spares [';'])
    (first : parser.Holds tokens ending) (second : later.Holds others finish)
    (whole : other.Holds (tokens ++ semicolon :: others.map (·.moved move)) (move finish))
    (separates : semicolon.token = .symbol ';') (known : later.settings = parser.settings)
    (otherKnown : other.settings = parser.settings)
    (inside : ∀ result ∈ parser.results, ∀ error, result.result = .error error →
      error.offender.token ≠ .endOfInput) :
    other.results = parser.results ++ later.results.map (·.moved move) := by
  obtain ⟨found, behind, stands, stream, settings, split⟩ :=
    results_twins (twins_ended spares first whole separates otherKnown)
  have same : found = parser.results.map (·.moved id) :=
    ItemResult.eq_map_moved stands fun result member error _ fails pair =>
      pair.2 (inside result member error fails)
  have left : behind.Holds (others.map (·.moved move)) (move finish) :=
    ⟨congrFun stream, fun token member => whole.found token (by simp [member])⟩
  have both : behind.settings = later.settings := settings.trans known.symm
  have moved := results_moved second left (fun _ _ _ _ => trivial) (by rw [both])
    (both ▸ .refl (fun _ => True) later.settings.operators)
  rw [split, same, moved]
  simp

/-! ### Parsers with the same results -/

theorem Settles.onwards (settles : rest.Settles) (result : ItemResult) :
    (result.onwards rest).Settles := by
  rcases result with ⟨kind, error | item⟩
  · exact settles.advance
  · exact settles

/-- Parsers with the same results, neither of which has more to read behind an end of input. -/
structure SameResults (parser : Parser τ) (other : Parser τ') : Prop where
  settles : parser.Settles
  otherSettles : other.Settles
  results : other.results = parser.results

/-- Parsers with the same results find the same result, or none, and so it goes on. -/
theorem SameResults.item? (same : parser.SameResults other) :
    (∃ rest, ∃ rest' : Parser τ', parser.item? = (none, rest) ∧ other.item? = (none, rest') ∧
      rest.SameResults rest') ∨
    ∃ result rest, ∃ rest' : Parser τ', parser.item? = (some result, rest) ∧
      other.item? = (some result, rest') ∧
      (result.onwards rest).SameResults (result.onwards rest') := by
  cases split : parser.results with
  | nil =>
    obtain ⟨rest, attempt⟩ := exists_of_results_nil split
    obtain ⟨rest', attempt'⟩ := exists_of_results_nil (same.results.trans split)
    refine .inl ⟨rest, rest', attempt, attempt', same.settles.item? attempt,
      same.otherSettles.item? attempt', ?_⟩
    rw [results_behind_none attempt, results_behind_none attempt']
  | cons result others =>
    obtain ⟨rest, attempt, behind⟩ := exists_of_results_cons split
    obtain ⟨rest', attempt', behind'⟩ := exists_of_results_cons (same.results.trans split)
    exact .inr ⟨result, rest, rest', attempt, attempt',
      (same.settles.item? attempt).onwards result,
      (same.otherSettles.item? attempt').onwards result, behind'.trans behind.symm⟩

end Parser

/-! ### Programs and texts -/

/-- Items up to the first error, after those already read. -/
def ProgramReading.ofResults (read : Array Item) : List ItemResult → ProgramReading
  | [] => ⟨read, none⟩
  | ⟨_, .ok item⟩ :: results => ofResults (read.push item) results
  | ⟨_, .error error⟩ :: _ => ⟨read, some error⟩

namespace Parser

/-- Reading a program keeps the results up to the first error. -/
theorem items_eq_ofResults {τ : Type} [TokenSource τ] (read : Array Item) (parser : Parser τ) :
    (parser.items read).1 = .ofResults read parser.results := by
  fun_induction items read parser with
  | case1 read parser rest attempt => rw [results_of_none attempt]; rfl
  | case2 read parser rest kind item attempt ih => rw [results_of_some attempt, ih]; rfl
  | case3 read parser rest kind error attempt => rw [results_of_some attempt]; rfl

/-- A parser over the characters of a source holds the tokens of their segments. -/
theorem holds_ofSource {σ : Type} [CharSource σ] {source : σ} {chars finish : List Char}
    {segments : List Segment} (settings : Settings) (ahead : CharSource.ahead source = chars)
    (cut : Segmented finish segments chars) :
    (Parser.ofTokens (Lexer.ofSource source) settings).advance.Holds (locate [] segments)
      (.behind chars) := by
  refine ⟨fun call => ?_, fun token member => ?_⟩
  · have looks := (Lexer.ahead_bump_ofSource source).trans ahead
    obtain ⟨answer, _⟩ :=
      Lexer.next_after_of_segmented cut (Lexer.counted_bump_ofSource source) looks call
    rw [← Lexer.next_after_congr (Lexer.next_ofSource source)] at answer
    exact (stream_advance _ call).trans answer
  · have spelled : token.token ∈ segments.map (·.token) := by
      rw [← map_token_locate []]
      exact List.mem_map_of_mem member
    obtain ⟨segment, among, same⟩ := List.mem_map.mp spelled
    rw [← same]
    exact (cut.lexeme segment among).ne_endOfInput

theorem settles_parserOfText (settings : Settings) (text : String) :
    (parserOfText settings text).advance.Settles := by
  obtain ⟨_, _, cut⟩ := exists_segmented text.toList
  exact ⟨_, _, holds_ofSource settings (CharSource.ahead_list _) cut⟩

end Parser

/-- What becomes of the items of a text. -/
def resultsOfText (settings : Settings) (text : String) : List ItemResult :=
  (parserOfText settings text).advance.results

theorem readProgram_eq_ofResults (settings : Settings) (text : String) :
    (readProgram settings text).1 = .ofResults #[] (resultsOfText settings text) :=
  Parser.items_eq_ofResults #[] (parserOfText settings text).advance

end OpLang
