import OpLang.Proofs.Parser.Stopping

/-! # Calls of the climbing loop

Climbing is a loop that calls itself for the right operand of an operator whenever a tighter one
follows, with the minimum raised above the operator that it has just passed. A tighter one at hand
means that the minimum can be raised without overflow and that the call finds something to do. Each
call combines operators that are tight enough and leaves none such at hand.
-/

namespace OpLang

/-- A tree that goes on to the right with operators and their operands. -/
def Expr.extend (left : Expr) (links : List (Char × Expr)) : Expr :=
  links.foldl (fun tree link => .binary link.1 tree link.2) left

namespace Parser

variable {τ : Type} [TokenSource τ]

/-- No operator that is at least as tight as the minimum is at hand. -/
def Loose (minimum : Int32) (parser : Parser τ) : Prop :=
  ∀ char precedence, parser.operator? = some (char, precedence) → precedence < minimum

/-- One turn of the loop: an operator that is tight enough is passed and its operand is read, with
the tighter operators behind it. -/
inductive Turn (minimum : Int32) (parser : Parser τ) : Char → Expr → Parser τ → Prop where
  | plain {rest : Parser τ} {char : Char} {precedence : Int32} {right : Expr}
    (operator : parser.operator? = some (char, precedence)) (tight : minimum ≤ precedence)
    (operand : parser.advance.primary = (.ok right, rest))
    (loose : ¬ precedence < rest.precedence) : Turn minimum parser char right rest
  | nested {middle rest : Parser τ} {char : Char} {precedence : Int32} {first right : Expr}
    (operator : parser.operator? = some (char, precedence)) (tight : minimum ≤ precedence)
    (operand : parser.advance.primary = (.ok first, middle))
    (tighter : precedence < middle.precedence)
    (inside : middle.climb (precedence + 1) first = (.ok right, rest)) :
    Turn minimum parser char right rest

/-- Turns of the loop one after the other, with the operators and the operands that they combine. -/
inductive Turns (minimum : Int32) : Parser τ → List (Char × Expr) → Parser τ → Prop where
  | done (parser : Parser τ) : Turns minimum parser [] parser
  | turn {parser middle rest : Parser τ} {char : Char} {right : Expr} {links : List (Char × Expr)}
    (first : Turn minimum parser char right middle) (others : Turns minimum middle links rest) :
    Turns minimum parser ((char, right) :: links) rest

/-- The calls that a call makes by itself, a rule for each place where one of the four functions is
called. The turns of a loop are no calls. -/
inductive Calls : {α β : Type} → Task α → Parser τ → Task β → Parser τ → Prop where
  | arguments {parser : Parser τ} {name : String} (current : parser.current = .name name)
    (opened : parser.advance.current = .symbol '(')
    (filled : parser.advance.advance.current ≠ .symbol ')') :
    Calls .primary parser (.arguments #[]) parser.advance.advance
  | group {parser : Parser τ} (current : parser.current = .symbol '(') :
    Calls .primary parser .expression parser.advance
  | argument (read : Array Expr) (parser : Parser τ) :
    Calls (.arguments read) parser .expression parser
  | moreArguments {parser rest : Parser τ} {read : Array Expr} {argument : Expr}
    (first : parser.expression = (.ok argument, rest)) (comma : rest.current = .symbol ',') :
    Calls (.arguments read) parser (.arguments (read.push argument)) rest.advance
  | first (parser : Parser τ) : Calls .expression parser .primary parser
  | links {parser rest : Parser τ} {left : Expr} (first : parser.primary = (.ok left, rest)) :
    Calls .expression parser (.climb 0 left) rest
  | operand {parser before : Parser τ} {minimum precedence : Int32} {left : Expr} {char : Char}
    {links : List (Char × Expr)} (turns : Turns minimum parser links before)
    (operator : before.operator? = some (char, precedence)) (tight : minimum ≤ precedence) :
    Calls (.climb minimum left) parser .primary before.advance
  | nested {parser before here : Parser τ} {minimum precedence : Int32} {left first : Expr}
    {char : Char} {links : List (Char × Expr)} (turns : Turns minimum parser links before)
    (operator : before.operator? = some (char, precedence)) (tight : minimum ≤ precedence)
    (operand : before.advance.primary = (.ok first, here))
    (tighter : precedence < here.precedence) :
    Calls (.climb minimum left) parser (.climb (precedence + 1) first) here

/-- The calls that are made while an expression is read, however deep. -/
inductive Within (start : Parser τ) : {α : Type} → Task α → Parser τ → Prop where
  | whole : Within start .expression start
  | call {α β : Type} {caller : Task α} {task : Task β} {parser here : Parser τ}
    (outer : Within start caller parser) (calls : Calls caller parser task here) :
    Within start task here

/-- Where a request reads an expression, if it comes to that. -/
inductive Request.Asks : {α : Type} → Request α → Parser τ → Parser τ → Prop where
  | expression (parser : Parser τ) : Asks .expression parser parser
  | definition {parser rest : Parser τ} {prototype : Prototype}
    (header : (parser.record (.parsing .definition parser.location)).advance.prototype =
      (.ok prototype, rest)) : Asks .definition parser rest
  | bareExpression (parser : Parser τ) :
    Asks .bareExpression parser (parser.record (.parsing .expression parser.location))
  | itemOfDefinition {parser start : Parser τ} (current : parser.skipSemicolons.current = .define)
    (asks : Asks .definition parser.skipSemicolons start) : Asks .item parser start
  | itemOfExpression {parser start : Parser τ}
    (found : parser.skipSemicolons.current ≠ .endOfInput)
    (noDefinition : parser.skipSemicolons.current ≠ .define)
    (noDeclaration : parser.skipSemicolons.current ≠ .declare)
    (asks : Asks .bareExpression parser.skipSemicolons start) : Asks .item parser start

/-- A call of the loop for a right operand. The loop of another call has just passed an operator and
read its first operand; the minimum is one more than the precedence of that operator. At hand is an
operator that is tight enough, and the call passes it. -/
structure Raised (start : Parser τ) (minimum : Int32) (left : Expr) (here : Parser τ)
    (char : Char) (precedence : Int32) : Prop where
  caller : ∃ outer tree parser links before, Within start (.climb outer tree) parser ∧
    Turns outer parser links before ∧ outer ≤ precedence ∧
    before.operator? = some (char, precedence) ∧ before.advance.primary = (.ok left, here)
  raised : minimum.toInt = precedence.toInt + 1
  atHand : ∃ next found, here.operator? = some (next, found) ∧ minimum ≤ found
  passes : ∃ passed, Passes here (here.here :: passed) (here.climb minimum left).2

/-- What can be relied on about a call of the loop while an expression is read with a table of
operators. -/
structure ClimbsWell (operators : Operators) (start : Parser τ) (minimum : Int32) (left : Expr)
    (here : Parser τ) : Prop where
  begins : minimum = 0 ∨ ∃ char precedence, Raised start minimum left here char precedence
  noOverflow : ∀ links before char precedence first middle, Turns minimum here links before →
    before.operator? = some (char, precedence) → minimum ≤ precedence →
    before.advance.primary = (.ok first, middle) → precedence < middle.precedence →
    (precedence + 1).toInt = precedence.toInt + 1
  combines : ∀ tree rest, here.climb minimum left = (.ok tree, rest) →
    ∃ links, Turns minimum here links rest ∧ tree = left.extend links ∧
      (∀ link ∈ links, ∃ precedence,
        operators.precedence? link.1 = some precedence ∧ minimum ≤ precedence) ∧
      ∀ char, rest.current = .symbol char →
        ∀ precedence, operators.precedence? char = some precedence → precedence < minimum

variable {α β : Type} {parser middle rest here start before : Parser τ}
  {minimum precedence : Int32} {left right : Expr} {char : Char} {links : List (Char × Expr)}

/-! ### Settings -/

theorem settings_eq_of_run (task : Task α) (parser : Parser τ) {outcome : Outcome τ α}
    (answer : task.run parser = outcome) : outcome.2.settings = parser.settings := by
  rw [← answer]
  exact (runs task parser).settings_eq

theorem Turn.settings_eq (turn : Turn minimum parser char right rest) :
    rest.settings = parser.settings := by
  cases turn with
  | plain _ _ operand => exact settings_eq_of_run .primary parser.advance operand
  | @nested middle _ _ precedence first _ _ _ operand _ inside =>
    have kept := settings_eq_of_run .primary parser.advance operand
    have answer := (Task.run_climb middle (precedence + 1) first).trans inside
    exact (settings_eq_of_run _ middle answer).trans kept

theorem Turns.settings_eq (turns : Turns minimum parser links rest) :
    rest.settings = parser.settings := by
  induction turns with
  | done => rfl
  | turn first _ ih => exact ih.trans first.settings_eq

theorem Calls.settings_eq {caller : Task α} {task : Task β}
    (calls : Calls caller parser task here) : here.settings = parser.settings := by
  cases calls with
  | arguments | group | argument | first => rfl
  | moreArguments first => exact settings_eq_of_run .expression parser first
  | links first => exact settings_eq_of_run .primary parser first
  | operand turns => exact turns.settings_eq
  | @nested _ before _ _ _ _ _ _ _ turns _ _ operand =>
    exact (settings_eq_of_run .primary before.advance operand).trans turns.settings_eq

/-- All calls share the settings. -/
theorem Within.settings_eq {task : Task α} (within : Within start task here) :
    here.settings = start.settings := by
  induction within with
  | whole => rfl
  | call _ calls ih => exact calls.settings_eq.trans ih

theorem Request.Asks.settings_eq {request : Request α} (asks : request.Asks parser start) :
    start.settings = parser.settings := by
  induction asks with
  | expression | bareExpression => rfl
  | @definition parser _ _ header =>
    have reached := prototype_reachedFrom
      (parser.record (.parsing .definition parser.location)).advance
    rw [header] at reached
    obtain ⟨_, passes⟩ := reached.passes
    exact passes.settings_eq
  | itemOfDefinition _ _ ih | itemOfExpression _ _ _ _ ih =>
    exact ih.trans (settings_skipSemicolons _)

/-! ### Turns -/

/-- After a turn the call goes on as if it had been made there. -/
theorem climb_of_turn (turn : Turn minimum parser char right rest) (left : Expr) :
    parser.climb minimum left = rest.climb minimum (.binary char left right) := by
  rw [climb_eq]
  cases turn with
  | plain operator tight operand loose =>
    simp only [operator, tight, operand, loose, if_true, if_false]
  | nested operator tight operand tighter inside =>
    simp only [operator, tight, operand, tighter, inside, if_true]

theorem climb_of_turns (turns : Turns minimum parser links rest) (left : Expr) :
    parser.climb minimum left = rest.climb minimum (left.extend links) := by
  induction turns generalizing left with
  | done => rfl
  | turn first _ ih => exact (climb_of_turn first left).trans (ih _)

theorem climb_of_loose (loose : parser.Loose minimum) (left : Expr) :
    parser.climb minimum left = (.ok left, parser) := by
  have ran : Runs (.climb minimum left) parser (.ok left, parser) := .stop loose
  exact ran.eq_run

/-- What a successful call of the loop has done; the other functions are not asked. -/
def Combines : {α : Type} → Task α → Parser τ → Outcome τ α → Prop
  | _, .climb minimum left, parser, (.ok tree, rest) =>
    ∃ links, Turns minimum parser links rest ∧ tree = left.extend links ∧ rest.Loose minimum
  | _, _, _, _ => True

theorem Runs.combines {task : Task α} {outcome : Outcome τ α} (ran : Runs task parser outcome) :
    Combines task parser outcome := by
  induction ran with
  | stop loose => exact ⟨[], .done _, rfl, loose⟩
  | @link _ _ _ _ _ _ _ outcome operator tight operand loose _ _ links =>
    rcases outcome with ⟨_ | tree, rest⟩
    · trivial
    · obtain ⟨links, turns, rfl, stopped⟩ := links
      exact ⟨_, .turn (.plain operator tight operand.eq_run loose) turns, rfl, stopped⟩
  | @tighterLink _ _ _ _ _ _ _ _ _ outcome operator tight operand tighter inside _ _ _ links =>
    rcases outcome with ⟨_ | tree, rest⟩
    · trivial
    · obtain ⟨links, turns, rfl, stopped⟩ := links
      exact ⟨_, .turn (.nested operator tight operand.eq_run tighter inside.eq_run) turns, rfl,
        stopped⟩
  | _ => trivial

/-- A call succeeds by turns alone, until no operator is tight enough. -/
theorem climb_eq_ok_iff {tree : Expr} : parser.climb minimum left = (.ok tree, rest) ↔
    ∃ links, Turns minimum parser links rest ∧ tree = left.extend links ∧ rest.Loose minimum := by
  constructor
  · intro answer
    have combines := (runs (.climb minimum left) parser).combines
    rwa [Task.run_climb, answer] at combines
  · rintro ⟨links, turns, rfl, loose⟩
    rw [climb_of_turns turns, climb_of_loose loose]

theorem Turn.entry (turn : Turn minimum parser char right rest) : ∃ precedence,
    parser.settings.operators.precedence? char = some precedence ∧ minimum ≤ precedence := by
  cases turn with
  | plain operator tight | nested operator tight =>
    exact ⟨_, (operator?_eq_some_iff.mp operator).2, tight⟩

/-- Every operator that turns combine is tight enough. -/
theorem Turns.entries (turns : Turns minimum parser links rest) : ∀ link ∈ links, ∃ precedence,
    parser.settings.operators.precedence? link.1 = some precedence ∧ minimum ≤ precedence := by
  induction turns with
  | done => exact fun _ impossible => absurd impossible List.not_mem_nil
  | turn first _ ih =>
    rw [first.settings_eq] at ih
    exact List.forall_mem_cons.mpr ⟨first.entry, ih⟩

/-! ### Raised minimums -/

omit [TokenSource τ] in
/-- A token tighter than an operator is an operator, and as tight as the raised minimum. -/
theorem operator?_of_tighter (operator : before.operator? = some (char, precedence))
    (tighter : precedence < here.precedence) :
    ∃ next found, here.operator? = some (next, found) ∧ precedence + 1 ≤ found := by
  cases atHand : here.operator? with
  | none =>
    -- What is no operator counts as `-1`, and precedences of operators are positive.
    obtain ⟨-, entry⟩ := operator?_eq_some_iff.mp operator
    obtain ⟨-, -, positive⟩ := Operators.precedence?_eq_some_iff.mp entry
    rw [Parser.precedence, atHand] at tighter
    exact absurd (Int32.lt_trans positive tighter) (by decide)
  | some entry =>
    refine ⟨entry.1, entry.2, rfl, ?_⟩
    have exact := toInt_succ tighter
    rw [precedence_eq_of_operator? atHand, Int32.lt_iff_toInt_lt] at tighter
    rw [Int32.le_iff_toInt_le]
    omega

/-- An operator at hand that is tight enough is passed, whatever becomes of the call. -/
theorem climb_passes (operator : here.operator? = some (char, precedence))
    (tight : minimum ≤ precedence) (left : Expr) :
    ∃ passed, Passes here (here.here :: passed) (here.climb minimum left).2 := by
  have found := current_ne_endOfInput_of_operator? operator
  obtain ⟨_, operand⟩ := (runs .primary here.advance).passes
  rw [Task.run_primary] at operand
  rw [climb_eq, operator]
  simp only [if_pos tight]
  split
  · next right middle answer =>
    rw [answer] at operand
    -- The operand takes the tighter operators behind it before the loop goes on.
    have tighter : ∃ passed, Passes middle passed (if precedence < middle.precedence
        then middle.climb (precedence + 1) right else (.ok right, middle)).2 := by
      split
      · exact (runs (.climb (precedence + 1) right) middle).passes
      · exact ⟨_, .stay _⟩
    obtain ⟨_, behind⟩ := tighter
    split
    · next right rest nested =>
      rw [nested] at behind
      obtain ⟨_, links⟩ := (runs (.climb minimum (.binary char left right)) rest).passes
      exact ⟨_, .advance found (operand.append (behind.append links))⟩
    · next error rest nested =>
      rw [nested] at behind
      exact ⟨_, .advance found (operand.append behind)⟩
  · next error rest answer =>
    rw [answer] at operand
    exact ⟨_, .advance found operand⟩

/-- How a call of the loop may begin; the other functions are not asked. -/
def Begins (start : Parser τ) : {α : Type} → Task α → Parser τ → Prop
  | _, .climb minimum left, here =>
    minimum = 0 ∨ ∃ char precedence, Raised start minimum left here char precedence
  | _, _, _ => True

/-- A call of the loop is the one for a whole expression, or its minimum has been raised. -/
theorem Within.begins {task : Task α} (within : Within start task here) :
    Begins start task here := by
  cases within with
  | whole => trivial
  | call outer calls =>
    cases calls with
    | links => exact .inl rfl
    | nested turns operator tight operand tighter =>
      obtain ⟨next, found, atHand, enough⟩ := operator?_of_tighter operator tighter
      exact .inr ⟨_, _, ⟨_, _, _, _, _, outer, turns, tight, operator, operand⟩,
        toInt_succ tighter, ⟨next, found, atHand, enough⟩, climb_passes atHand enough _⟩
    | _ => trivial

/-- Whatever is asked of a parser, and however deep a call of the loop is made, the minimum is
raised without overflow and the call keeps to it. -/
theorem climbsWell_of_within {request : Request α} (asks : request.Asks parser start)
    (within : Within start (.climb minimum left) here) :
    ClimbsWell parser.settings.operators start minimum left here where
  begins := within.begins
  noOverflow _ _ _ _ _ _ _ _ _ _ tighter := toInt_succ tighter
  combines tree rest answer := by
    obtain ⟨links, turns, rfl, loose⟩ := climb_eq_ok_iff.mp answer
    have table := congrArg Settings.operators (within.settings_eq.trans asks.settings_eq)
    have tableBehind := (congrArg Settings.operators turns.settings_eq).trans table
    refine ⟨links, turns, rfl, table ▸ turns.entries, fun char current precedence entry => ?_⟩
    exact loose char precedence (operator?_eq_some_iff.mpr ⟨current, tableBehind ▸ entry⟩)

/-- The right operand of the sum is climbed with the greatest minimum that there is. -/
theorem climbsWell_of_within_of_greatest :
    let operators := Operators.empty.installAll [('+', 2147483646), ('*', 2147483647)]
    let source := Lexer.ofSource "1+2*3".toList
    let start := (ofTokens source ⟨operators, true⟩).advance
    let here := start.advance.advance.advance
    let left := Expr.number ⟨0x4000000000000000⟩
    Request.expression.Asks start start ∧ Within start (.climb 2147483647 left) here ∧
      ClimbsWell start.settings.operators start 2147483647 left here := by
  intro operators source start here left
  have one : start.current = .number ⟨0x3FF0000000000000⟩ := by decide +kernel
  have two : start.advance.advance.current = .number ⟨0x4000000000000000⟩ := by decide +kernel
  have asks : Request.expression.Asks start start := .expression start
  have sum : start.advance.operator? = some ('+', 2147483646) := by decide +kernel
  have product : (2147483646 : Int32) < here.precedence := by decide +kernel
  have within := Within.whole.call (.links (Runs.number one).eq_run) |>.call
    (.nested (.done _) sum (by decide) (Runs.number two).eq_run product)
  exact ⟨asks, within, climbsWell_of_within asks within⟩

end Parser

end OpLang
