import OpLang.Proofs.Parser.Foresight
import OpLang.Proofs.Parser.Likeness
import OpLang.Proofs.Parser.Programs

/-! # Twins read alike

Whatever a parser reads, its twin reads: they return the same, or they fail for the same reason at
tokens that stand for each other, and both times they leave twins behind. Thresholds of one climb
need not be those of the other, but the same operators reach them.
-/

namespace OpLang

/-- The same value, or errors for the same reason, and twins left behind. -/
inductive Outcome.Twins {τ τ' α : Type} [TokenSource τ] [TokenSource τ'] (like : Likeness) :
    Outcome τ α → Outcome τ' α → Prop where
  | ok {rest : Parser τ} {rest' : Parser τ'} (value : α) (parsers : rest.Twins like rest') :
    Twins like (.ok value, rest) (.ok value, rest')
  | error {error error' : ParseError} {rest : Parser τ} {rest' : Parser τ'}
    (errors : error.Twins like error') (parsers : rest.Twins like rest') :
    Twins like (.error error, rest) (.error error', rest')

namespace Outcome

variable {τ τ' α β : Type} [TokenSource τ] [TokenSource τ'] {like : Likeness}

theorem Twins.andThen {outcome : Outcome τ α} {other : Outcome τ' α}
    {next : α → Parser τ → Outcome τ β} {next' : α → Parser τ' → Outcome τ' β}
    (twins : outcome.Twins like other)
    (onwards : ∀ value rest rest', rest.Twins like rest' →
      (next value rest).Twins like (next' value rest')) :
    (outcome.andThen next).Twins like (other.andThen next') := by
  cases twins with
  | ok value parsers => exact onwards value _ _ parsers
  | error errors parsers => exact .error errors parsers

theorem Twins.map {outcome : Outcome τ α} {other : Outcome τ' α}
    (twins : outcome.Twins like other) (change : α → β) :
    (outcome.map change).Twins like (other.map change) :=
  twins.andThen fun value _ _ parsers => .ok (change value) parsers

end Outcome

namespace Parser

variable {τ τ' α : Type} [TokenSource τ] [TokenSource τ'] {like : Likeness} {parser : Parser τ}
  {other : Parser τ'}

/-- Twins stop for the same reason at tokens that stand for each other. -/
theorem twins_refuse (twins : parser.Twins like other) (wanted : Expectation) :
    Outcome.Twins like (parser.refuse wanted : Outcome τ α)
      (other.refuse wanted : Outcome τ' α) :=
  .error ⟨.unexpected wanted _ _, twins.here⟩ (twins.record _ _)

theorem twins_fail (twins : parser.Twins like other) {name : String}
    (current : parser.current = .name name) :
    Outcome.Twins like (parser.fail (.repeatedParameter name) : Outcome τ α)
      (other.fail (.repeatedParameter name) : Outcome τ' α) := by
  have same : other.current = .name name := (twins.pass current (by simp)).1
  have offender : like.pairs ⟨.name name, parser.location⟩ ⟨.name name, other.location⟩ := by
    have here := twins.here
    rwa [Parser.here, Parser.here, current, same] at here
  exact .error ⟨.repeatedParameter name, offender⟩ (twins.record _ _)

/-- Calls of the same function; what is climbed is climbed from thresholds on. -/
def Task.Twins (like : Likeness) : {α : Type} → Task α → Task α → Prop
  | _, .climb minimum left, other => ∃ otherMinimum, other = .climb otherMinimum left ∧
    like.Thresholds minimum otherMinimum
  | _, .primary, other => other = .primary
  | _, .arguments read, other => other = .arguments read
  | _, .expression, other => other = .expression

/-- Whatever a call does, its twin does. -/
theorem Runs.twins {task task' : Task α} {outcome : Outcome τ α} (ran : Runs task parser outcome)
    (tasks : task.Twins like task') (twins : parser.Twins like other) :
    ∃ otherOutcome : Outcome τ' α, Runs task' other otherOutcome ∧
      outcome.Twins like otherOutcome := by
  -- Every test on the token at hand has the same answer for both, so the twin has a run of the same
  -- shape. Where the first input ends, no rule goes on, and none goes on with a semicolon either.
  induction ran generalizing other with
  | number current =>
    obtain rfl : task' = .primary := tasks
    obtain ⟨same, passed⟩ := twins.pass current (by simp)
    exact ⟨_, .number same, .ok _ passed⟩
  | «variable» current bare =>
    obtain rfl : task' = .primary := tasks
    obtain ⟨same, passed⟩ := twins.pass current (by simp)
    exact ⟨_, .variable same (passed.current_ne (by simp) (by decide) bare), .ok _ passed⟩
  | emptyCall current opened closed =>
    obtain rfl : task' = .primary := tasks
    obtain ⟨same, named⟩ := twins.pass current (by simp)
    obtain ⟨sameOpened, entered⟩ := named.pass opened (by simp)
    obtain ⟨sameClosed, behind⟩ := entered.pass closed (by simp)
    exact ⟨_, .emptyCall same sameOpened sameClosed, .ok _ behind⟩
  | call current opened filled _ inside =>
    obtain rfl : task' = .primary := tasks
    obtain ⟨same, named⟩ := twins.pass current (by simp)
    obtain ⟨sameOpened, entered⟩ := named.pass opened (by simp)
    obtain ⟨_, otherRan, outcomes⟩ := inside rfl entered
    cases outcomes with
    | ok arguments behind =>
      exact ⟨_, .call same sameOpened (entered.current_ne (by simp) (by decide) filled) otherRan,
        .ok _ behind⟩
  | callError current opened filled _ inside =>
    obtain rfl : task' = .primary := tasks
    obtain ⟨same, named⟩ := twins.pass current (by simp)
    obtain ⟨sameOpened, entered⟩ := named.pass opened (by simp)
    obtain ⟨_, otherRan, outcomes⟩ := inside rfl entered
    cases outcomes with
    | error errors behind =>
      exact ⟨_, .callError same sameOpened (entered.current_ne (by simp) (by decide) filled)
        otherRan, .error errors behind⟩
  | group current _ closed inside =>
    obtain rfl : task' = .primary := tasks
    obtain ⟨same, entered⟩ := twins.pass current (by simp)
    obtain ⟨_, otherRan, outcomes⟩ := inside rfl entered
    cases outcomes with
    | ok inner reached =>
      obtain ⟨sameClosed, behind⟩ := reached.pass closed (by simp)
      exact ⟨_, .group same otherRan sameClosed, .ok _ behind⟩
  | unclosedGroup current _ unclosed inside =>
    obtain rfl : task' = .primary := tasks
    obtain ⟨same, entered⟩ := twins.pass current (by simp)
    obtain ⟨_, otherRan, outcomes⟩ := inside rfl entered
    cases outcomes with
    | ok inner reached =>
      exact ⟨_, .unclosedGroup same otherRan (reached.current_ne (by simp) (by decide) unclosed),
        twins_refuse reached _⟩
  | groupError current _ inside =>
    obtain rfl : task' = .primary := tasks
    obtain ⟨same, entered⟩ := twins.pass current (by simp)
    obtain ⟨_, otherRan, outcomes⟩ := inside rfl entered
    cases outcomes with
    | error errors behind => exact ⟨_, .groupError same otherRan, .error errors behind⟩
  | noPrimary noNumber noName noGroup =>
    obtain rfl : task' = .primary := tasks
    exact ⟨_, .noPrimary (fun value => twins.current_ne (by simp) (by simp) (noNumber value))
      (fun name => twins.current_ne (by simp) (by simp) (noName name))
      (twins.current_ne (by simp) (by decide) noGroup), twins_refuse twins _⟩
  | lastArgument _ closed first =>
    obtain rfl : task' = .arguments _ := tasks
    obtain ⟨_, otherRan, outcomes⟩ := first rfl twins
    cases outcomes with
    | ok argument reached =>
      obtain ⟨sameClosed, behind⟩ := reached.pass closed (by simp)
      exact ⟨_, .lastArgument otherRan sameClosed, .ok _ behind⟩
  | moreArguments _ comma _ first others =>
    obtain rfl : task' = .arguments _ := tasks
    obtain ⟨_, otherRan, outcomes⟩ := first rfl twins
    cases outcomes with
    | ok argument reached =>
      obtain ⟨sameComma, behind⟩ := reached.pass comma (by simp)
      obtain ⟨_, otherRanOthers, othersTwins⟩ := others rfl behind
      exact ⟨_, .moreArguments otherRan sameComma otherRanOthers, othersTwins⟩
  | unclosedCall _ unclosed noComma first =>
    obtain rfl : task' = .arguments _ := tasks
    obtain ⟨_, otherRan, outcomes⟩ := first rfl twins
    cases outcomes with
    | ok argument reached =>
      exact ⟨_, .unclosedCall otherRan (reached.current_ne (by simp) (by decide) unclosed)
        (reached.current_ne (by simp) (by decide) noComma), twins_refuse reached _⟩
  | argumentError _ first =>
    obtain rfl : task' = .arguments _ := tasks
    obtain ⟨_, otherRan, outcomes⟩ := first rfl twins
    cases outcomes with
    | error errors behind => exact ⟨_, .argumentError otherRan, .error errors behind⟩
  | chain _ _ first links =>
    obtain rfl : task' = .expression := tasks
    obtain ⟨_, otherRan, outcomes⟩ := first rfl twins
    cases outcomes with
    | ok left reached =>
      obtain ⟨_, otherRanLinks, linksTwins⟩ := links ⟨0, rfl, like.thresholds_zero⟩ reached
      exact ⟨_, .chain otherRan otherRanLinks, linksTwins⟩
  | chainError _ first =>
    obtain rfl : task' = .expression := tasks
    obtain ⟨_, otherRan, outcomes⟩ := first rfl twins
    cases outcomes with
    | error errors behind => exact ⟨_, .chainError otherRan, .error errors behind⟩
  | stop loose =>
    obtain ⟨otherMinimum, rfl, thresholds⟩ := tasks
    refine ⟨_, .stop fun char otherPrecedence otherOperator => ?_, .ok _ twins⟩
    obtain ⟨precedence, operator, entry⟩ := twins.operator_of_other otherOperator
    have unreached := Int32.not_le.mpr (loose char precedence operator)
    exact Int32.not_le.mp ((thresholds char _ _ entry).not.mp unreached)
  | link operator tight _ loose _ operand links =>
    obtain ⟨otherMinimum, rfl, thresholds⟩ := tasks
    obtain ⟨_, otherOperator, entry⟩ := twins.operator operator
    have passed := twins.advance (current_ne_endOfInput_of_operator? operator)
    obtain ⟨_, otherRan, outcomes⟩ := operand rfl passed
    cases outcomes with
    | ok right reached =>
      obtain ⟨_, otherRanLinks, linksTwins⟩ := links ⟨otherMinimum, rfl, thresholds⟩ reached
      exact ⟨_, .link otherOperator ((thresholds _ _ _ entry).mp tight) otherRan
        ((reached.precedence_lt_iff entry).not.mp loose) otherRanLinks, linksTwins⟩
  | tighterLink operator tight _ tighter _ _ operand inside links =>
    obtain ⟨otherMinimum, rfl, thresholds⟩ := tasks
    obtain ⟨_, otherOperator, entry⟩ := twins.operator operator
    have passed := twins.advance (current_ne_endOfInput_of_operator? operator)
    obtain ⟨_, otherRan, outcomes⟩ := operand rfl passed
    cases outcomes with
    | ok first reached =>
      obtain ⟨_, otherRanInside, insideTwins⟩ :=
        inside ⟨_, rfl, reached.thresholds entry tighter⟩ reached
      cases insideTwins with
      | ok right climbed =>
        obtain ⟨_, otherRanLinks, linksTwins⟩ := links ⟨otherMinimum, rfl, thresholds⟩ climbed
        exact ⟨_, .tighterLink otherOperator ((thresholds _ _ _ entry).mp tight) otherRan
          ((reached.precedence_lt_iff entry).mp tighter) otherRanInside otherRanLinks, linksTwins⟩
  | tighterError operator tight _ tighter _ operand inside =>
    obtain ⟨otherMinimum, rfl, thresholds⟩ := tasks
    obtain ⟨_, otherOperator, entry⟩ := twins.operator operator
    have passed := twins.advance (current_ne_endOfInput_of_operator? operator)
    obtain ⟨_, otherRan, outcomes⟩ := operand rfl passed
    cases outcomes with
    | ok first reached =>
      obtain ⟨_, otherRanInside, insideTwins⟩ :=
        inside ⟨_, rfl, reached.thresholds entry tighter⟩ reached
      cases insideTwins with
      | error errors behind =>
        exact ⟨_, .tighterError otherOperator ((thresholds _ _ _ entry).mp tight) otherRan
          ((reached.precedence_lt_iff entry).mp tighter) otherRanInside, .error errors behind⟩
  | operandError operator tight _ operand =>
    obtain ⟨otherMinimum, rfl, thresholds⟩ := tasks
    obtain ⟨_, otherOperator, entry⟩ := twins.operator operator
    have passed := twins.advance (current_ne_endOfInput_of_operator? operator)
    obtain ⟨_, otherRan, outcomes⟩ := operand rfl passed
    cases outcomes with
    | error errors behind =>
      exact ⟨_, .operandError otherOperator ((thresholds _ _ _ entry).mp tight) otherRan,
        .error errors behind⟩

/-! ### Items -/

theorem expression_twins (twins : parser.Twins like other) :
    parser.expression.Twins like other.expression := by
  obtain ⟨_, otherRan, outcomes⟩ := (runs .expression parser).twins rfl twins
  obtain rfl := otherRan.eq_run
  exact outcomes

omit [TokenSource τ'] in
/-- Parameters end with anything but a name, and only a closing parenthesis ends them well. -/
theorem parameters_of_end (read : Array String)
    (noName : ∀ name, parser.advance.current ≠ .name name)
    (unclosed : parser.advance.current ≠ .symbol ')') :
    parser.parameters read = parser.advance.refuse .parametersEnd := by
  rw [parameters_eq]
  split <;> simp_all

/-- Where the parameters of the first input do not go on, those of the other one do not either. -/
private theorem parameters_twins_of_end (read : Array String) (twins : parser.Twins like other)
    (found : parser.current ≠ .endOfInput) {token : Token}
    (current : parser.advance.current = token) (noName : ∀ name, token ≠ .name name)
    (unclosed : token ≠ .symbol ')') :
    Outcome.Twins like (parser.advance.refuse .parametersEnd : Outcome τ (Array String))
      (other.parameters read) := by
  subst current
  have entered := twins.advance found
  rw [parameters_of_end read (fun name => entered.current_ne (by simp) (by simp) (noName name))
    (entered.current_ne (by simp) (by decide) unclosed)]
  exact twins_refuse entered _

theorem parameters_twins (read : Array String) (twins : parser.Twins like other)
    (found : parser.current ≠ .endOfInput) :
    (parser.parameters read).Twins like (other.parameters read) := by
  fun_induction parameters read parser generalizing other with
  | case1 read parser name current repeated =>
    have entered := twins.advance found
    rw [parameters_eq read other, (entered.pass current (by simp)).1, twins.repeated_eq]
    simp only [repeated, if_true]
    exact twins_fail entered current
  | case2 read parser name current fresh ih =>
    have entered := twins.advance found
    rw [parameters_eq read other, (entered.pass current (by simp)).1, twins.repeated_eq]
    simp only [fresh]
    exact ih entered (by rw [current]; simp)
  | case3 read parser current =>
    obtain ⟨same, behind⟩ := (twins.advance found).pass current (by simp)
    rw [parameters_eq read other, same]
    exact .ok _ behind
  | case4 read parser char current unclosed =>
    exact parameters_twins_of_end read twins found current (by simp) (by simpa using unclosed)
  | case5 read _ _ current | case6 read _ current | case7 read _ current | case8 read _ current =>
    exact parameters_twins_of_end read twins found current (by simp) (by simp)

omit [TokenSource τ'] in
theorem prototype_of_other (noName : ∀ name, parser.current ≠ .name name) :
    parser.prototype = parser.refuse .functionName := by
  unfold prototype
  split <;> simp_all

theorem prototype_twins (twins : parser.Twins like other) :
    parser.prototype.Twins like other.prototype := by
  by_cases named : ∃ name, parser.current = .name name
  · obtain ⟨name, current⟩ := named
    obtain ⟨same, passed⟩ := twins.pass current (by simp)
    have opens : other.advance.current = .symbol '(' ↔ parser.advance.current = .symbol '(' :=
      passed.current_iff (by simp) (by decide)
    unfold prototype
    simp only [current, same, opens]
    split
    · next opened => exact (parameters_twins #[] passed (by rw [opened]; simp)).map _
    · exact twins_refuse passed _
  · have noName (name : String) : parser.current ≠ .name name :=
      fun current => named ⟨name, current⟩
    rw [prototype_of_other noName,
      prototype_of_other fun name => twins.current_ne (by simp) (by simp) (noName name)]
    exact twins_refuse twins _

theorem definition_twins (twins : parser.Twins like other) (found : parser.current ≠ .endOfInput) :
    parser.definition.Twins like other.definition :=
  (prototype_twins ((twins.record _ _).advance found)).andThen
    fun _ _ _ behind => (expression_twins behind).map _

theorem declaration_twins (twins : parser.Twins like other)
    (found : parser.current ≠ .endOfInput) :
    parser.declaration.Twins like other.declaration :=
  prototype_twins ((twins.record _ _).advance found)

theorem bareExpression_twins (twins : parser.Twins like other) :
    parser.bareExpression.Twins like other.bareExpression :=
  (expression_twins (twins.record _ _)).map _

/-- Twins that have something to read read items of the same kind with the same outcome. -/
theorem itemHere?_twins (twins : parser.Twins like other) (found : parser.current ≠ .endOfInput) :
    ∃ kind, ∃ outcome : Outcome τ Item, ∃ other' : Outcome τ' Item,
      parser.itemHere? = (some ⟨kind, outcome.1⟩, outcome.2) ∧
      other.itemHere? = (some ⟨kind, other'.1⟩, other'.2) ∧ outcome.Twins like other' := by
  have same := twins.current_eq found
  unfold itemHere?
  rw [same]
  split
  · contradiction
  · exact ⟨_, _, _, rfl, rfl, (definition_twins twins found).map _⟩
  · exact ⟨_, _, _, rfl, rfl, (declaration_twins twins found).map _⟩
  all_goals exact ⟨_, _, _, rfl, rfl, (bareExpression_twins twins).map _⟩

omit [TokenSource τ'] in
theorem current_skipSemicolons_ne (parser : Parser τ) :
    parser.skipSemicolons.current ≠ .symbol ';' := by
  fun_induction skipSemicolons parser with
  | case1 _ _ ih => exact ih
  | case2 _ other => exact other

/-- Where the first parser comes to stop behind its semicolons, the other one has a twin of it on
its way. -/
theorem skipSemicolons_twins (twins : parser.Twins like other) :
    ∃ other' : Parser τ', parser.skipSemicolons.Twins like other' ∧
      other.skipSemicolons = other'.skipSemicolons := by
  fun_induction skipSemicolons parser generalizing other with
  | case1 parser current ih =>
    obtain ⟨same, passed⟩ := twins.pass current (by simp)
    obtain ⟨other', behind, skipped⟩ := ih passed
    refine ⟨other', behind, ?_⟩
    rw [skipSemicolons, if_pos same, skipped]
  | case2 parser => exact ⟨other, twins, rfl⟩

/-- Twins read the same next item, unless there is none in the first input. -/
theorem item?_twins (twins : parser.Twins like other) :
    (∃ rest, ∃ other' : Parser τ', parser.item? = (none, rest) ∧ other.item? = other'.item? ∧
      rest.Twins like other' ∧ rest.current = .endOfInput) ∨
    ∃ kind, ∃ outcome : Outcome τ Item, ∃ other' : Outcome τ' Item,
      parser.item? = (some ⟨kind, outcome.1⟩, outcome.2) ∧
      other.item? = (some ⟨kind, other'.1⟩, other'.2) ∧ outcome.Twins like other' := by
  obtain ⟨other', behind, skipped⟩ := skipSemicolons_twins twins
  have same : other.item? = other'.item? := by rw [item?, item?, skipped]
  by_cases finished : parser.skipSemicolons.current = .endOfInput
  · left
    refine ⟨parser.skipSemicolons, other', ?_, same, behind, finished⟩
    rw [item?, itemHere?, finished]
  · right
    obtain ⟨kind, outcome, otherOutcome, attempt, otherAttempt, outcomes⟩ :=
      itemHere?_twins behind finished
    refine ⟨kind, outcome, otherOutcome, attempt, ?_, outcomes⟩
    rw [same, item?_of_other, otherAttempt]
    rw [behind.current_eq finished]
    exact current_skipSemicolons_ne parser

end Parser

end OpLang
