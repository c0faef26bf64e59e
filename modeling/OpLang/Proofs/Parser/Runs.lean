import OpLang.Proofs.Parser.Ahead

/-! # Runs of the expression parser

The four functions that read expressions call each other. `Runs` says what one call can do, a rule
for each of its branches, so that a property of all calls is proved by one induction over runs.
Runs are exactly the values of the functions: `runs` finds the run behind a value, and
`Runs.eq_run` says that a call has no other.
-/

namespace OpLang.Parser

/-- A call of one of the functions that read expressions, but for its parser. -/
inductive Task : Type → Type 1 where
  | primary : Task Expr
  | arguments (read : Array Expr) : Task (Array Expr)
  | expression : Task Expr
  | climb (minimum : Int32) (left : Expr) : Task Expr

namespace Task

variable {τ α : Type}

/-- What a call answers. -/
def run [TokenSource τ] (parser : Parser τ) : Task α → Outcome τ α
  | .primary => parser.primary
  | .arguments read => parser.arguments read
  | .expression => parser.expression
  | .climb minimum left => parser.climb minimum left

variable [TokenSource τ] (parser : Parser τ)

@[simp] theorem run_primary : Task.primary.run parser = parser.primary := rfl

@[simp] theorem run_arguments (read : Array Expr) :
    (Task.arguments read).run parser = parser.arguments read := rfl

@[simp] theorem run_expression : Task.expression.run parser = parser.expression := rfl

@[simp] theorem run_climb (minimum : Int32) (left : Expr) :
    (Task.climb minimum left).run parser = parser.climb minimum left := rfl

end Task

variable {τ α : Type} [TokenSource τ]

/-- What a call can do, by the branches that it may take. -/
inductive Runs : {α : Type} → Task α → Parser τ → Outcome τ α → Prop where
  | number {parser : Parser τ} {value : Binary64} (current : parser.current = .number value) :
    Runs .primary parser (.ok (.number value), parser.advance)
  | variable {parser : Parser τ} {name : String} (current : parser.current = .name name)
    (bare : parser.advance.current ≠ .symbol '(') :
    Runs .primary parser (.ok (.variable name), parser.advance)
  | emptyCall {parser : Parser τ} {name : String} (current : parser.current = .name name)
    (opened : parser.advance.current = .symbol '(')
    (closed : parser.advance.advance.current = .symbol ')') :
    Runs .primary parser (.ok (.call name []), parser.advance.advance.advance)
  | call {parser rest : Parser τ} {name : String} {arguments : Array Expr}
    (current : parser.current = .name name) (opened : parser.advance.current = .symbol '(')
    (filled : parser.advance.advance.current ≠ .symbol ')')
    (inside : Runs (.arguments #[]) parser.advance.advance (.ok arguments, rest)) :
    Runs .primary parser (.ok (.call name arguments.toList), rest)
  | callError {parser rest : Parser τ} {name : String} {error : ParseError}
    (current : parser.current = .name name) (opened : parser.advance.current = .symbol '(')
    (filled : parser.advance.advance.current ≠ .symbol ')')
    (inside : Runs (.arguments #[]) parser.advance.advance (.error error, rest)) :
    Runs .primary parser (.error error, rest)
  | group {parser rest : Parser τ} {inner : Expr} (current : parser.current = .symbol '(')
    (inside : Runs .expression parser.advance (.ok inner, rest))
    (closed : rest.current = .symbol ')') : Runs .primary parser (.ok inner, rest.advance)
  | unclosedGroup {parser rest : Parser τ} {inner : Expr} (current : parser.current = .symbol '(')
    (inside : Runs .expression parser.advance (.ok inner, rest))
    (unclosed : rest.current ≠ .symbol ')') :
    Runs .primary parser (rest.refuse .closingParenthesis)
  | groupError {parser rest : Parser τ} {error : ParseError}
    (current : parser.current = .symbol '(')
    (inside : Runs .expression parser.advance (.error error, rest)) :
    Runs .primary parser (.error error, rest)
  | noPrimary {parser : Parser τ} (noNumber : ∀ value, parser.current ≠ .number value)
    (noName : ∀ name, parser.current ≠ .name name) (noGroup : parser.current ≠ .symbol '(') :
    Runs .primary parser (parser.refuse .expression)
  | lastArgument {parser rest : Parser τ} {read : Array Expr} {argument : Expr}
    (first : Runs .expression parser (.ok argument, rest)) (closed : rest.current = .symbol ')') :
    Runs (.arguments read) parser (.ok (read.push argument), rest.advance)
  | moreArguments {parser rest : Parser τ} {read : Array Expr} {argument : Expr}
    {outcome : Outcome τ (Array Expr)}
    (first : Runs .expression parser (.ok argument, rest)) (comma : rest.current = .symbol ',')
    (others : Runs (.arguments (read.push argument)) rest.advance outcome) :
    Runs (.arguments read) parser outcome
  | unclosedCall {parser rest : Parser τ} {read : Array Expr} {argument : Expr}
    (first : Runs .expression parser (.ok argument, rest)) (unclosed : rest.current ≠ .symbol ')')
    (noComma : rest.current ≠ .symbol ',') :
    Runs (.arguments read) parser (rest.refuse .argumentEnd)
  | argumentError {parser rest : Parser τ} {read : Array Expr} {error : ParseError}
    (first : Runs .expression parser (.error error, rest)) :
    Runs (.arguments read) parser (.error error, rest)
  | chain {parser rest : Parser τ} {left : Expr} {outcome : Outcome τ Expr}
    (first : Runs .primary parser (.ok left, rest)) (links : Runs (.climb 0 left) rest outcome) :
    Runs .expression parser outcome
  | chainError {parser rest : Parser τ} {error : ParseError}
    (first : Runs .primary parser (.error error, rest)) :
    Runs .expression parser (.error error, rest)
  | stop {parser : Parser τ} {minimum : Int32} {left : Expr}
    (loose : ∀ char precedence, parser.operator? = some (char, precedence) →
      precedence < minimum) :
    Runs (.climb minimum left) parser (.ok left, parser)
  | link {parser rest : Parser τ} {minimum precedence : Int32} {left right : Expr} {char : Char}
    {outcome : Outcome τ Expr} (operator : parser.operator? = some (char, precedence))
    (tight : minimum ≤ precedence) (operand : Runs .primary parser.advance (.ok right, rest))
    (loose : ¬ precedence < rest.precedence)
    (links : Runs (.climb minimum (.binary char left right)) rest outcome) :
    Runs (.climb minimum left) parser outcome
  | tighterLink {parser middle rest : Parser τ} {minimum precedence : Int32}
    {left first right : Expr} {char : Char} {outcome : Outcome τ Expr}
    (operator : parser.operator? = some (char, precedence)) (tight : minimum ≤ precedence)
    (operand : Runs .primary parser.advance (.ok first, middle))
    (tighter : precedence < middle.precedence)
    (inside : Runs (.climb (precedence + 1) first) middle (.ok right, rest))
    (links : Runs (.climb minimum (.binary char left right)) rest outcome) :
    Runs (.climb minimum left) parser outcome
  | tighterError {parser middle rest : Parser τ} {minimum precedence : Int32} {left first : Expr}
    {char : Char} {error : ParseError} (operator : parser.operator? = some (char, precedence))
    (tight : minimum ≤ precedence) (operand : Runs .primary parser.advance (.ok first, middle))
    (tighter : precedence < middle.precedence)
    (inside : Runs (.climb (precedence + 1) first) middle (.error error, rest)) :
    Runs (.climb minimum left) parser (.error error, rest)
  | operandError {parser rest : Parser τ} {minimum precedence : Int32} {left : Expr} {char : Char}
    {error : ParseError} (operator : parser.operator? = some (char, precedence))
    (tight : minimum ≤ precedence) (operand : Runs .primary parser.advance (.error error, rest)) :
    Runs (.climb minimum left) parser (.error error, rest)

/-- All calls on parsers smaller than some size end as runs do. -/
private def RunsBelow (τ : Type) [TokenSource τ] (size : Nat) : Prop :=
  ∀ {α : Type} (task : Task α) (parser : Parser τ), parser.size < size →
    Runs task parser (task.run parser)

private theorem runs_call {parser : Parser τ} {name : String} (below : RunsBelow τ parser.size)
    (current : parser.current = .name name) (opened : parser.advance.current = .symbol '(')
    (filled : parser.advance.advance.current ≠ .symbol ')') :
    Runs .primary parser (match parser.advance.advance.arguments #[] with
      | (.ok arguments, rest) => (.ok (.call name arguments.toList), rest)
      | (.error error, rest) => (.error error, rest)) := by
  have entered : parser.advance.size < parser.size := size_advance_lt (by simp [current])
  have passed := size_advance_le parser.advance
  have inside := below (.arguments #[]) parser.advance.advance (by omega)
  rw [Task.run_arguments] at inside
  split
  · next arguments rest read => exact .call current opened filled (read ▸ inside)
  · next error rest read => exact .callError current opened filled (read ▸ inside)

private theorem runs_group {parser : Parser τ} (below : RunsBelow τ parser.size)
    (current : parser.current = .symbol '(') :
    Runs .primary parser (match parser.advance.expression with
      | (.ok inner, rest) =>
        if rest.current = .symbol ')' then (.ok inner, rest.advance)
        else rest.refuse .closingParenthesis
      | (.error error, rest) => (.error error, rest)) := by
  have entered : parser.advance.size < parser.size := size_advance_lt (by simp [current])
  have inside := below .expression parser.advance entered
  rw [Task.run_expression] at inside
  split
  · next inner rest read =>
    split
    · next closed => exact .group current (read ▸ inside) closed
    · next unclosed => exact .unclosedGroup current (read ▸ inside) unclosed
  · next error rest read => exact .groupError current (read ▸ inside)

private theorem runs_primary {parser : Parser τ} (below : RunsBelow τ parser.size) :
    Runs .primary parser parser.primary := by
  rw [primary_eq]
  split
  · next value current => exact .number current
  · next name current =>
    split
    · next opened =>
      dsimp only
      split
      · next closed => exact .emptyCall current opened closed
      · next filled => exact runs_call below current opened filled
    · next bare => exact .variable current bare
  · next char current =>
    split
    · next opened =>
      subst opened
      exact runs_group below current
    · next other =>
      exact .noPrimary (by simp [current]) (by simp [current]) (by simp [current, other])
  all_goals
    next current =>
    exact .noPrimary (by simp [current]) (by simp [current]) (by simp [current])

private theorem runs_climb {parser : Parser τ} (below : RunsBelow τ parser.size) (minimum : Int32)
    (left : Expr) : Runs (.climb minimum left) parser (parser.climb minimum left) := by
  rw [climb_eq]
  split
  · next char precedence operator =>
    split
    · next tight =>
      have passed : parser.advance.size < parser.size :=
        size_advance_lt (current_ne_endOfInput_of_operator? operator)
      have operand := below .primary parser.advance passed
      have shortens := primary_shortens parser.advance
      rw [Task.run_primary] at operand
      split
      · next right middle answer =>
        rw [answer] at operand shortens
        have smaller : middle.size < parser.size := Nat.lt_trans shortens passed
        by_cases tighter : precedence < middle.precedence
        · have inside := below (.climb (precedence + 1) right) middle smaller
          have noLonger := size_climb_le (precedence + 1) right middle
          rw [Task.run_climb] at inside
          rw [if_pos tighter]
          split
          · next found rest climbed =>
            rw [climbed] at inside noLonger
            have shorter : rest.size < parser.size := Nat.lt_of_le_of_lt noLonger smaller
            have links := below (.climb minimum (.binary char left found)) rest shorter
            exact .tighterLink operator tight operand tighter inside links
          · next error rest climbed =>
            exact .tighterError operator tight operand tighter (climbed ▸ inside)
        · rw [if_neg tighter]
          have links := below (.climb minimum (.binary char left right)) middle smaller
          exact .link operator tight operand tighter links
      · next error rest answer => exact .operandError operator tight (answer ▸ operand)
    · next loose =>
      refine .stop fun other found same => ?_
      rw [operator, Option.some.injEq, Prod.mk.injEq] at same
      rw [← same.2]
      exact Int32.not_le.mp loose
  · next none => exact .stop fun char precedence found => by simp [none] at found

private theorem runs_expression {parser : Parser τ} (below : RunsBelow τ parser.size) :
    Runs .expression parser parser.expression := by
  have first := runs_primary below
  have shortens := primary_shortens parser
  rw [expression_eq]
  split
  · next left rest answer =>
    rw [answer] at first shortens
    exact .chain first (below (.climb 0 left) rest shortens)
  · next error rest answer => exact .chainError (answer ▸ first)

private theorem runs_arguments {parser : Parser τ} (below : RunsBelow τ parser.size)
    (read : Array Expr) : Runs (.arguments read) parser (parser.arguments read) := by
  have first := runs_expression below
  have shortens := expression_shortens parser
  rw [arguments_eq]
  split
  · next argument rest answer =>
    rw [answer] at first shortens
    have smaller : rest.advance.size < parser.size :=
      Nat.lt_of_le_of_lt (size_advance_le rest) shortens
    split
    · next closed => exact .lastArgument first closed
    · next unclosed =>
      split
      · next comma =>
        exact .moreArguments first comma
          (below (.arguments (read.push argument)) rest.advance smaller)
      · next noComma => exact .unclosedCall first unclosed noComma
  · next error rest answer => exact .argumentError (answer ▸ first)

/-- Every value of the four functions is the end of a run. -/
theorem runs (task : Task α) (parser : Parser τ) : Runs task parser (task.run parser) := by
  -- The functions only call each other on smaller parsers once `expression` has met its primary.
  have below : ∀ size, RunsBelow τ size := by
    intro size
    induction size with
    | zero => exact fun _ parser impossible => absurd impossible (Nat.not_lt_zero _)
    | succ size ih =>
      intro α task parser smaller
      have here : RunsBelow τ parser.size :=
        fun task later bound => ih task later (by omega)
      cases task with
      | primary => exact runs_primary here
      | arguments read => exact runs_arguments here read
      | expression => exact runs_expression here
      | climb minimum left => exact runs_climb here minimum left
  exact below (parser.size + 1) task parser (Nat.lt_succ_self _)

/-- A call passes tokens, whether it succeeds or not, and stops at the first one that it did not
pass. -/
theorem Runs.passes {task : Task α} {parser : Parser τ} {outcome : Outcome τ α}
    (ran : Runs task parser outcome) : ∃ passed, Passes parser passed outcome.2 := by
  induction ran with
  | number current =>
    exact ⟨_, .advance (by rw [current]; simp) (.stay _)⟩
  | «variable» current _ =>
    exact ⟨_, .advance (by rw [current]; simp) (.stay _)⟩
  | emptyCall current opened closed =>
    have entered := Passes.advance (by rw [opened]; simp) <|
      Passes.advance (by rw [closed]; simp) (.stay _)
    exact ⟨_, .advance (by rw [current]; simp) entered⟩
  | call current opened _ _ inside | callError current opened _ _ inside =>
    obtain ⟨passed, inside⟩ := inside
    have entered := Passes.advance (by rw [opened]; simp) inside
    exact ⟨_, .advance (by rw [current]; simp) entered⟩
  | group current _ closed inside =>
    obtain ⟨passed, inside⟩ := inside
    exact ⟨_, .advance (by rw [current]; simp) (inside.snoc (by rw [closed]; simp))⟩
  | unclosedGroup current _ _ inside =>
    obtain ⟨passed, inside⟩ := inside
    exact ⟨_, .advance (by rw [current]; simp) (inside.append (.record _ (.stay _)))⟩
  | groupError current _ inside =>
    obtain ⟨passed, inside⟩ := inside
    exact ⟨_, .advance (by rw [current]; simp) inside⟩
  | noPrimary => exact ⟨_, .record _ (.stay _)⟩
  | lastArgument _ closed first =>
    obtain ⟨passed, first⟩ := first
    exact ⟨_, first.snoc (by rw [closed]; simp)⟩
  | moreArguments _ comma _ first others =>
    obtain ⟨passed, first⟩ := first
    obtain ⟨further, others⟩ := others
    exact ⟨_, (first.snoc (by rw [comma]; simp)).append others⟩
  | unclosedCall _ _ _ first =>
    obtain ⟨passed, first⟩ := first
    exact ⟨_, first.append (.record _ (.stay _))⟩
  | argumentError _ first | chainError _ first => exact first
  | chain _ _ first links =>
    obtain ⟨passed, first⟩ := first
    obtain ⟨further, links⟩ := links
    exact ⟨_, first.append links⟩
  | stop => exact ⟨_, .stay _⟩
  | link operator _ _ _ _ operand links =>
    obtain ⟨passed, operand⟩ := operand
    obtain ⟨further, links⟩ := links
    exact ⟨_, .advance (current_ne_endOfInput_of_operator? operator) (operand.append links)⟩
  | tighterLink operator _ _ _ _ _ operand inside links =>
    obtain ⟨passed, operand⟩ := operand
    obtain ⟨further, inside⟩ := inside
    obtain ⟨last, links⟩ := links
    exact ⟨_, .advance (current_ne_endOfInput_of_operator? operator)
      (operand.append (inside.append links))⟩
  | tighterError operator _ _ _ _ operand inside =>
    obtain ⟨passed, operand⟩ := operand
    obtain ⟨further, inside⟩ := inside
    exact ⟨_, .advance (current_ne_endOfInput_of_operator? operator) (operand.append inside)⟩
  | operandError operator _ _ operand =>
    obtain ⟨passed, operand⟩ := operand
    exact ⟨_, .advance (current_ne_endOfInput_of_operator? operator) operand⟩

/-- Errors come from refusals, however deep, and nothing is passed behind them. -/
theorem Runs.atOffender {task : Task α} {parser : Parser τ} {outcome : Outcome τ α}
    (ran : Runs task parser outcome) : outcome.AtOffender := by
  induction ran with
  | number | «variable» | emptyCall | call | group | lastArgument | stop => trivial
  | unclosedGroup | noPrimary | unclosedCall => rfl
  | callError _ _ _ _ deeper | groupError _ _ deeper | argumentError _ deeper
  | chainError _ deeper | tighterError _ _ _ _ _ _ deeper | operandError _ _ _ deeper =>
    exact deeper
  | moreArguments _ _ _ _ last | chain _ _ _ last | link _ _ _ _ _ _ last
  | tighterLink _ _ _ _ _ _ _ _ last => exact last

theorem Runs.reachedFrom {task : Task α} {parser : Parser τ} {outcome : Outcome τ α}
    (ran : Runs task parser outcome) : outcome.ReachedFrom parser :=
  ⟨ran.passes, ran.atOffender⟩

theorem Runs.settings_eq {task : Task α} {parser : Parser τ} {outcome : Outcome τ α}
    (ran : Runs task parser outcome) : outcome.2.settings = parser.settings := by
  obtain ⟨passed, passes⟩ := ran.passes
  exact passes.settings_eq

/-- A call has one run only. -/
theorem Runs.eq_run {task : Task α} {parser : Parser τ} {outcome : Outcome τ α}
    (ran : Runs task parser outcome) : task.run parser = outcome := by
  induction ran with
  | number current => simp only [Task.run_primary, primary_eq, current]
  | «variable» current bare => simp only [Task.run_primary, primary_eq, current, bare, if_false]
  | emptyCall current opened closed =>
    simp only [Task.run_primary, primary_eq, current, opened, closed, if_true]
  | call current opened filled _ inside =>
    rw [Task.run_arguments] at inside
    simp only [Task.run_primary, primary_eq, current, opened, filled, if_true, if_false, inside]
  | callError current opened filled _ inside =>
    rw [Task.run_arguments] at inside
    simp only [Task.run_primary, primary_eq, current, opened, filled, if_true, if_false, inside]
  | group current _ closed inside =>
    rw [Task.run_expression] at inside
    simp only [Task.run_primary, primary_eq, current, closed, if_true, inside]
  | unclosedGroup current _ unclosed inside =>
    rw [Task.run_expression] at inside
    simp only [Task.run_primary, primary_eq, current, unclosed, if_true, if_false, inside]
  | groupError current _ inside =>
    rw [Task.run_expression] at inside
    simp only [Task.run_primary, primary_eq, current, if_true, inside]
  | noPrimary noNumber noName noGroup =>
    rw [Task.run_primary, primary_eq]
    split <;> simp_all
  | lastArgument _ closed first =>
    rw [Task.run_expression] at first
    rw [Task.run_arguments, arguments_eq, first]
    simp only [closed, if_true]
  | moreArguments _ comma _ first others =>
    rw [Task.run_expression] at first
    rw [Task.run_arguments] at others ⊢
    rw [arguments_eq, first]
    simp [comma, others]
  | unclosedCall _ unclosed noComma first =>
    rw [Task.run_expression] at first
    rw [Task.run_arguments, arguments_eq, first]
    simp only [unclosed, noComma, if_false]
  | argumentError _ first =>
    rw [Task.run_expression] at first
    rw [Task.run_arguments, arguments_eq, first]
  | chain _ _ first links =>
    rw [Task.run_primary] at first
    rw [Task.run_climb] at links
    rw [Task.run_expression, expression_eq, first]
    exact links
  | chainError _ first =>
    rw [Task.run_primary] at first
    rw [Task.run_expression, expression_eq, first]
  | @stop parser minimum left loose =>
    rw [Task.run_climb, climb_eq]
    split
    · next char precedence operator =>
      rw [if_neg (Int32.not_le.mpr (loose char precedence operator))]
    · rfl
  | link operator tight _ loose _ operand links =>
    rw [Task.run_primary] at operand
    rw [Task.run_climb] at links ⊢
    rw [climb_eq, operator]
    simp only [tight, loose, if_true, if_false, operand, links]
  | tighterLink operator tight _ tighter _ _ operand inside links =>
    rw [Task.run_primary] at operand
    rw [Task.run_climb] at inside links ⊢
    rw [climb_eq, operator]
    simp only [tight, tighter, if_true, operand, inside, links]
  | tighterError operator tight _ tighter _ operand inside =>
    rw [Task.run_primary] at operand
    rw [Task.run_climb] at inside ⊢
    rw [climb_eq, operator]
    simp only [tight, tighter, if_true, operand, inside]
  | operandError operator tight _ operand =>
    rw [Task.run_primary] at operand
    rw [Task.run_climb, climb_eq, operator]
    simp only [tight, if_true, operand]

end OpLang.Parser
