import OpLang.Proofs.Parser.Results
import OpLang.Proofs.Parser.Soundness

/-! # Where a parser stops

Whatever is asked of a parser, and in whatever state, it reads some tokens on. If it answers with a
value, these tokens are what it has read the value from, and the one behind them is at hand. If it
answers with an error, the token at hand is the one that the error complains about, and its place is
that of the error. Over a source of characters the token at hand is the one of the text that follows
all those read before, at the place where it begins.
-/

namespace OpLang

/-- The answer to a question that cannot have none. -/
def Outcome.answer {τ α : Type} (outcome : Outcome τ α) : Option (Except ParseError α) × Parser τ :=
  (some outcome.1, outcome.2)

namespace Parser

open Grammar

/-- What can be asked of a parser, with the type of what it reads. -/
inductive Request : Type → Type where
  | expression : Request Expr
  | prototype : Request Prototype
  | definition : Request Function
  | declaration : Request Prototype
  | bareExpression : Request Function
  | item : Request Item

variable {τ α : Type} [TokenSource τ] {parser middle rest : Parser τ} {count : Nat}

/-- What a parser answers, and the parser after it. Only at the end of input is there no item. -/
def Request.run (parser : Parser τ) : Request α → Option (Except ParseError α) × Parser τ
  | .expression => parser.expression.answer
  | .prototype => parser.prototype.answer
  | .definition => parser.definition.answer
  | .declaration => parser.declaration.answer
  | .bareExpression => parser.bareExpression.answer
  | .item => (parser.item?.1.map (·.result), parser.item?.2)

/-- The tokens that a value is read from. Any token is taken for the reserved word in front of a
definition or a declaration; semicolons stand before an item. -/
inductive Request.Construct (settings : Settings) :
    {α : Type} → Request α → α → List Token → Prop where
  | expression {chain : Chain} (uses : chain.Uses settings.operators) :
    Construct settings .expression (chain.tree settings.operators.strength) chain.tokens
  | prototype {prototype : Prototype} (allowed : AllowsPrototype settings prototype) :
    Construct settings .prototype prototype (prototypeTokens prototype)
  | definition {word : Token} {prototype : Prototype} {body : Expr} {front behind : List Token}
    (header : Construct settings .prototype prototype front)
    (expression : Construct settings .expression body behind) :
    Construct settings .definition ⟨prototype, body⟩ (word :: (front ++ behind))
  | declaration {word : Token} {prototype : Prototype} {tokens : List Token}
    (header : Construct settings .prototype prototype tokens) :
    Construct settings .declaration prototype (word :: tokens)
  | bareExpression {body : Expr} {tokens : List Token}
    (expression : Construct settings .expression body tokens) :
    Construct settings .bareExpression (.ofExpr body) tokens
  | item {semicolons : List Token} {clause : Clause}
    (semicolon : ∀ token ∈ semicolons, token = .symbol ';') (fits : clause.Fits settings) :
    Construct settings .item (clause.item settings.operators.strength) (semicolons ++ clause.tokens)

/-- The first tokens of a parser's stream. -/
def taken (parser : Parser τ) (count : Nat) : List LocatedToken :=
  (List.range count).map parser.stream

/-- The second parser is the first one after so many tokens have been read, but for the log. -/
def ReadsOn (count : Nat) (parser rest : Parser τ) : Prop :=
  ∃ log, rest = { advance^[count] parser with log }

/-- How an answer goes with the tokens that have been read for it and with the parser after it. -/
inductive Request.Stops (request : Request α) (parser : Parser τ) (count : Nat) :
    Option (Except ParseError α) × Parser τ → Prop where
  | nothing {rest : Parser τ} (semicolons : ∀ token ∈ parser.taken count, token.token = .symbol ';')
    (finished : rest.current = .endOfInput) : Stops request parser count (none, rest)
  | value {value : α} {rest : Parser τ} (filled : 0 < count)
    (construct : request.Construct parser.settings value ((parser.taken count).map (·.token))) :
    Stops request parser count (some (.ok value), rest)
  | error {error : ParseError} {rest : Parser τ} (location : error.location = rest.location)
    (offender : error.fault.offender = rest.current) :
    Stops request parser count (some (.error error), rest)

/-! ### Reading on -/

theorem readsOn_log (parser : Parser τ) (log : Array Event) :
    ReadsOn 0 parser { parser with log } :=
  ⟨log, rfl⟩

theorem readsOn_stay (parser : Parser τ) : ReadsOn 0 parser parser := readsOn_log parser parser.log

theorem readsOn_advance (parser : Parser τ) (event : Event) :
    ReadsOn 1 parser (parser.record event).advance :=
  ⟨_, rfl⟩

/-- Entries in the log make no difference to what is read. -/
theorem ReadsOn.of_log {log : Array Event} (onwards : ReadsOn count { parser with log } rest) :
    ReadsOn count parser rest := by
  have same (count : Nat) (log : Array Event) (parser : Parser τ) :
      ReadsOn count parser (advance^[count] { parser with log }) := by
    induction count generalizing log parser with
    | zero => exact ⟨log, rfl⟩
    | succ count ih => exact ih _ parser.advance
  obtain ⟨behind, rfl⟩ := onwards
  obtain ⟨_, moved⟩ := same count log parser
  exact ⟨behind, by rw [moved]⟩

theorem ReadsOn.trans {further : Nat} (first : ReadsOn count parser middle)
    (second : ReadsOn further middle rest) : ReadsOn (count + further) parser rest := by
  obtain ⟨log, rfl⟩ := first
  obtain ⟨log', rfl⟩ := second.of_log
  exact ⟨log', by rw [Nat.add_comm, Function.iterate_add_apply]⟩

/-- Each token that is read comes off the stream. -/
theorem ReadsOn.stream (onwards : ReadsOn count parser rest) (call : Nat) :
    rest.stream call = parser.stream (count + call) := by
  obtain ⟨log, rfl⟩ := onwards
  have same : { advance^[count] parser with log }.stream call =
      (advance^[count] parser).stream call := by
    cases call <;> rfl
  rw [same]
  induction count generalizing parser with
  | zero => rw [Nat.zero_add]; rfl
  | succ count ih =>
    rw [Function.iterate_succ_apply, ih rfl, stream_advance, Nat.succ_add_eq_add_succ]
    rfl

theorem length_taken (parser : Parser τ) (count : Nat) : (parser.taken count).length = count := by
  rw [taken, List.length_map, List.length_range]

theorem map_taken_one (parser : Parser τ) :
    (parser.taken 1).map (·.token) = [parser.current] :=
  rfl

theorem ReadsOn.taken_add (onwards : ReadsOn count parser middle) (further : Nat) :
    parser.taken (count + further) = parser.taken count ++ middle.taken further := by
  rw [taken, List.range_add, List.map_append, List.map_map, taken, taken,
    List.map_congr_left fun call _ => onwards.stream call]
  rfl

/-- What is passed are the first tokens of the stream. -/
theorem Passes.readsOn {passed : List LocatedToken} (passes : Passes parser passed rest) :
    ReadsOn passed.length parser rest ∧ parser.taken passed.length = passed := by
  induction passes with
  | stay => exact ⟨readsOn_stay _, rfl⟩
  | @advance parser rest passed _ _ ih =>
    obtain ⟨⟨log, same⟩, tokens⟩ := ih
    refine ⟨⟨log, same⟩, ?_⟩
    have first : ReadsOn 1 parser parser.advance := ⟨_, rfl⟩
    rw [List.length_cons, Nat.add_comm, first.taken_add, tokens]
    rfl
  | record event _ ih =>
    obtain ⟨onwards, tokens⟩ := ih
    refine ⟨onwards.of_log, ?_⟩
    rw [taken, stream_record] at tokens
    exact tokens

/-! ### Answers -/

theorem Request.Construct.ne_nil {settings : Settings} {request : Request α} {value : α}
    {tokens : List Token} (construct : request.Construct settings value tokens) : tokens ≠ [] := by
  induction construct with
  | @expression chain =>
    obtain ⟨_, _, tokens, _⟩ := chain.tokens_eq_cons
    rw [tokens]
    exact List.cons_ne_nil _ _
  | prototype | definition | declaration => exact List.cons_ne_nil _ _
  | bareExpression _ ih => exact ih
  | @item _ clause =>
    obtain ⟨_, _, tokens, _⟩ := clause.tokens_eq_cons
    rw [tokens]
    exact List.append_ne_nil_of_right_ne_nil _ (List.cons_ne_nil _ _)

/-- An outcome that passes tokens after some that have been read answers as it should, if its value
is read from all of them. -/
theorem stops_of_reachedFrom {request : Request α} {outcome : Outcome τ α}
    (first : ReadsOn count parser middle) (reached : outcome.ReachedFrom middle)
    (construct : ∀ value rest passed, outcome = (.ok value, rest) → Passes middle passed rest →
      request.Construct parser.settings value
        ((parser.taken count).map (·.token) ++ passed.map (·.token))) :
    ∃ count, ReadsOn count parser outcome.2 ∧ request.Stops parser count outcome.answer := by
  obtain ⟨⟨passed, passes⟩, offender⟩ := reached
  obtain ⟨onwards, tokens⟩ := passes.readsOn
  refine ⟨_, first.trans onwards, ?_⟩
  rcases outcome with ⟨error | value, rest⟩
  · exact .error (congrArg (·.location) offender.symm) (congrArg (·.token) offender.symm)
  · have read := construct value rest passed rfl passes
    rw [← tokens, ← List.map_append, ← first.taken_add] at read
    have filled := List.length_pos_iff.mpr read.ne_nil
    rw [List.length_map, length_taken] at filled
    exact .value filled read

/-- Any number of semicolons is read before an item. -/
theorem stops_item (parser : Parser τ) : ∃ count, ReadsOn count parser parser.item?.2 ∧
    Request.item.Stops parser count (Request.item.run parser) := by
  obtain ⟨skipped, skips, semicolon⟩ := skipSemicolons_passes parser
  obtain ⟨first, tokens⟩ := skips.readsOn
  have attempted := attempts_item? parser
  rw [Request.run]
  generalize parser.item? = attempt at attempted
  cases attempted with
  | finished current => exact ⟨_, first, .nothing (tokens.symm ▸ semicolon) current⟩
  | @parsed kind item rest passed passes reads =>
    obtain ⟨clause, fits, _, rfl, upcoming⟩ := reads
    rw [settings_skipSemicolons] at fits ⊢
    let item := clause.item parser.settings.operators.strength
    have reached : Outcome.ReachedFrom parser.skipSemicolons ((.ok item, rest) : Outcome τ Item) :=
      ⟨⟨passed, passes⟩, trivial⟩
    refine stops_of_reachedFrom first reached ?_
    rintro value _ passed ⟨⟩ passes
    rw [passes.tokens_eq upcoming, tokens]
    exact .item (List.forall_mem_map.mpr semicolon) fits
  | @rejected kind error rest passed _ passes offender =>
    have reached :
        Outcome.ReachedFrom parser.skipSemicolons ((.error error, rest) : Outcome τ Item) :=
      ⟨⟨passed, passes⟩, offender⟩
    refine stops_of_reachedFrom first reached ?_
    rintro _ _ _ ⟨⟩

/-- Every answer comes about as it should. -/
theorem stops_run (parser : Parser τ) (request : Request α) :
    ∃ count, ReadsOn count parser (request.run parser).2 ∧
      request.Stops parser count (request.run parser) := by
  cases request with
  | expression =>
    refine stops_of_reachedFrom (readsOn_stay parser) (runs .expression parser).reachedFrom ?_
    intro tree rest passed answer passes
    obtain ⟨chain, uses, rfl, read, _⟩ := expression_reads rfl answer
    rw [passes.tokens_eq read]
    exact .expression uses
  | prototype =>
    refine stops_of_reachedFrom (readsOn_stay parser) (prototype_reachedFrom parser) ?_
    intro prototype rest passed answer passes
    obtain ⟨allowed, read⟩ := prototype_reads answer
    rw [passes.tokens_eq read]
    exact .prototype allowed
  | definition =>
    refine stops_of_reachedFrom (readsOn_advance parser _) (definition_reachedFrom_behind parser) ?_
    rintro ⟨prototype, body⟩ rest passed answer passes
    obtain ⟨allowed, chain, uses, rfl, read⟩ := definition_reads_behind answer
    rw [← List.append_assoc] at read
    rw [map_taken_one, passes.tokens_eq read, List.singleton_append]
    exact .definition (.prototype allowed) (.expression uses)
  | declaration =>
    refine stops_of_reachedFrom (readsOn_advance parser _) (prototype_reachedFrom _) ?_
    intro prototype rest passed answer passes
    obtain ⟨allowed, read⟩ := prototype_reads answer
    rw [map_taken_one, passes.tokens_eq read, List.singleton_append]
    exact .declaration (.prototype allowed)
  | bareExpression =>
    refine stops_of_reachedFrom (readsOn_stay parser) (bareExpression_reachedFrom parser) ?_
    intro function rest passed answer passes
    obtain ⟨body, expression, rfl⟩ := Outcome.map_eq_ok_iff.mp answer
    obtain ⟨chain, uses, rfl, read, _⟩ := expression_reads rfl expression
    rw [passes.tokens_eq read]
    exact .bareExpression (.expression uses)
  | item => exact stops_item parser

/-! ### Places -/

section

variable {σ : Type} [CharSource σ] {settings : Settings} {source : σ} {chars finish : List Char}
  {segments : List Segment} {parser rest : Parser (Lexer σ)}

/-- The token at hand after so many have been read. Before the first one it is taken for the end of
input, and behind the last one it is the end of input. -/
def tokenAfter (chars : List Char) (segments : List Segment) : Nat → LocatedToken
  | 0 => ⟨.endOfInput, .first⟩
  | calls + 1 => ((locate [] segments)[calls]?).getD ⟨.endOfInput, .behind chars⟩

/-- So many tokens of a text have been read, and those behind them are still to come. -/
def HasRead (chars : List Char) (segments : List Segment) (calls : Nat) (parser : Parser τ) :
    Prop :=
  ∀ call, parser.stream call = tokenAfter chars segments (calls + call)

omit [CharSource σ] in
theorem HasRead.readsOn {calls : Nat} {parser rest : Parser τ}
    (hasRead : parser.HasRead chars segments calls) (onwards : ReadsOn count parser rest) :
    rest.HasRead chars segments (calls + count) := by
  intro call
  rw [onwards.stream, hasRead, Nat.add_assoc]

/-- In whatever state, a parser has read some beginning of the tokens of its source. -/
theorem Reached.hasRead (reached : Reached settings source parser)
    (cut : Segmented finish segments (CharSource.ahead source)) :
    ∃ calls, parser.HasRead (CharSource.ahead source) segments calls := by
  induction reached with
  | start =>
    refine ⟨0, fun call => ?_⟩
    rw [Nat.zero_add]
    cases call with
    | zero => rfl
    | succ call =>
      rw [← stream_advance]
      exact (holds_ofSource settings rfl cut).stream call
  | advance _ ih =>
    obtain ⟨calls, hasRead⟩ := ih
    exact ⟨calls + 1, hasRead.readsOn ⟨_, rfl⟩⟩
  | log _ log ih =>
    obtain ⟨calls, hasRead⟩ := ih
    exact ⟨calls, hasRead.readsOn (readsOn_log _ log)⟩

theorem Reached.readsOn (reached : Reached settings source parser)
    (onwards : ReadsOn count parser rest) : Reached settings source rest := by
  obtain ⟨log, rfl⟩ := onwards
  refine .log ?_ log
  induction count generalizing parser with
  | zero => exact reached
  | succ count ih => exact ih reached.advance

/-- Whatever is asked of a parser, in whatever state over a source, the answer goes with the tokens
of the source that are read for it and with the one that follows them, which is at hand with its
place. -/
theorem Reached.stops_at_next_token (reached : Reached settings source parser)
    (request : Request α) :
    ∃ segments finish, Segmented finish segments (CharSource.ahead source) ∧ ∃ calls count,
      parser.HasRead (CharSource.ahead source) segments calls ∧
      (request.run parser).2.HasRead (CharSource.ahead source) segments (calls + count) ∧
      Reached settings source (request.run parser).2 ∧
      request.Stops parser count (request.run parser) := by
  obtain ⟨segments, finish, cut⟩ := exists_segmented (CharSource.ahead source)
  obtain ⟨calls, hasRead⟩ := reached.hasRead cut
  obtain ⟨count, onwards, stops⟩ := stops_run parser request
  exact ⟨segments, finish, cut, calls, count, hasRead, hasRead.readsOn onwards,
    reached.readsOn onwards, stops⟩

end

/-- The second `x` is left, and so is everything behind it. -/
theorem stops_at_next_token_of_repetition :
    let source := "def f(x y x) 1".toList
    let parser := (ofTokens (Lexer.ofSource source) ⟨.standard, false⟩).advance
    Reached ⟨.standard, false⟩ source parser ∧
      ∃ error rest, Request.definition.run parser = (some (.error error), rest) ∧
        error = ⟨.repeatedParameter "x", ⟨1, 11⟩⟩ ∧
        ∃ segments finish, Segmented finish segments (CharSource.ahead source) ∧ ∃ calls count,
          parser.HasRead (CharSource.ahead source) segments calls ∧
          rest.HasRead (CharSource.ahead source) segments (calls + count) ∧
          Reached ⟨.standard, false⟩ source rest ∧
          Request.definition.Stops parser count (some (.error error), rest) := by
  intro source parser
  have reached : Reached ⟨.standard, false⟩ source parser := .advance .start
  have answer : (match parser.definition.1 with | .ok _ => none | .error error => some error) =
      some ⟨.repeatedParameter "x", ⟨1, 11⟩⟩ := by decide +kernel
  have stops := reached.stops_at_next_token .definition
  refine ⟨reached, ?_⟩
  rw [Request.run, Outcome.answer] at stops ⊢
  rcases read : parser.definition with ⟨error | function, rest⟩
  · rw [read] at answer stops
    exact ⟨error, rest, rfl, Option.some.inj answer, stops⟩
  · rw [read] at answer
    contradiction

end Parser

end OpLang
