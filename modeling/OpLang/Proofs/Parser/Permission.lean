import OpLang.Proofs.Grammar.Program
import OpLang.Proofs.Parser.Twins

/-! # The permission to repeat parameters

A parser may have the permission to repeat parameters or not. The permission changes nothing until
a parser without it meets a repetition: up to there both do the same, and there the one stops with
an error while the other one takes the parameter and goes on. From then on it only passes more
tokens, and if it ends up with a value, then the repetition is still in it.
-/

namespace OpLang

/-- The error complains about a repeated parameter. -/
def ParseError.IsRepetition (error : ParseError) : Prop :=
  ∃ name, error.fault = .repeatedParameter name

namespace Parser

variable {τ α : Type}

/-- The parser with the permission to repeat parameters. -/
def permitting (parser : Parser τ) : Parser τ :=
  { parser with settings := { parser.settings with allowRepeatedParameters := true } }

end Parser

namespace Outcome

variable {τ α β : Type}

/-- The outcome with the permission to repeat parameters from now on. -/
def permitting (outcome : Outcome τ α) : Outcome τ α := (outcome.1, outcome.2.permitting)

variable [TokenSource τ]

/-- What becomes of a reading without the permission to repeat parameters, and what becomes of it
with the permission: the same, or the one stops at a parameter that the other one takes. -/
inductive Restricts (repeats : α → Prop) : Outcome τ α → Outcome τ α → Prop where
  | same (outcome : Outcome τ α)
    (other : ∀ error, outcome.1 = .error error → ¬ error.IsRepetition) :
    Restricts repeats outcome outcome.permitting
  | stopped {error : ParseError} {before : Parser τ} {event : Event} {onwards : Outcome τ α}
    (repetition : error.IsRepetition) (reached : onwards.ReachedFrom before.permitting.advance)
    (kept : ∀ value, onwards.1 = .ok value → repeats value) :
    Restricts repeats (.error error, before.record event) onwards

variable {strict lenient : Outcome τ α} {repeats : α → Prop} {repeats' : β → Prop}

theorem Restricts.same_or_stopped (restricts : strict.Restricts repeats lenient) :
    (lenient = strict.permitting ∧ ∀ error, strict.1 = .error error → ¬ error.IsRepetition) ∨
    ∃ (error : ParseError) (before : Parser τ) (event : Event),
      strict = (.error error, before.record event) ∧ error.IsRepetition ∧
      lenient.ReachedFrom before.permitting.advance ∧
      ∀ value, lenient.1 = .ok value → repeats value := by
  cases restricts with
  | same _ other => exact .inl ⟨rfl, other⟩
  | stopped repetition reached kept => exact .inr ⟨_, _, _, rfl, repetition, reached, kept⟩

theorem restricts_ok (value : α) (rest : Parser τ) :
    Restricts repeats (.ok value, rest) (.ok value, rest.permitting) :=
  .same (.ok value, rest) nofun

/-- What is not as expected is refused both times. -/
theorem restricts_refuse (parser : Parser τ) (wanted : Expectation) :
    Restricts repeats (parser.refuse wanted) (parser.permitting.refuse wanted) := by
  refine .same (parser.refuse wanted) ?_
  rintro error ⟨⟩ ⟨name, impossible⟩
  contradiction

theorem Restricts.andThen {next : α → Parser τ → Outcome τ β}
    (first : strict.Restricts repeats lenient)
    (onwards : ∀ value rest, strict = (.ok value, rest) →
      (next value rest).Restricts repeats' (next value rest.permitting))
    (reaches : ∀ value rest, (next value rest).ReachedFrom rest)
    (keeps : ∀ value rest value', repeats value → (next value rest).1 = .ok value' →
      repeats' value') :
    (strict.andThen next).Restricts repeats' (lenient.andThen next) := by
  cases first with
  | same _ other =>
    rcases strict with ⟨error | value, rest⟩
    · refine .same (.error error, rest) ?_
      rintro _ ⟨⟩
      exact other error rfl
    · exact onwards value rest rfl
  | stopped repetition reached kept =>
    refine .stopped repetition (reached.andThen fun value rest _ => reaches value rest) ?_
    intro value' answer
    rcases lenient with ⟨error | value, rest⟩
    · contradiction
    · exact keeps value rest value' (kept value rfl) answer

theorem Restricts.map {change : α → β} (first : strict.Restricts repeats lenient)
    (keeps : ∀ value, repeats value → repeats' (change value)) :
    (strict.map change).Restricts repeats' (lenient.map change) := by
  apply first.andThen
  · exact fun value rest _ => restricts_ok _ _
  · exact fun value rest => ⟨⟨[], .stay rest⟩, trivial⟩
  · rintro value rest _ repeated ⟨⟩
    exact keeps value repeated

end Outcome

namespace Parser

variable {τ α : Type} [TokenSource τ] {parser rest : Parser τ}

/-! ### Expressions -/

/-- No rule of expressions looks at the permission. -/
theorem Runs.permitting {task : Task α} {outcome : Outcome τ α} (ran : Runs task parser outcome) :
    Runs task parser.permitting outcome.permitting := by
  induction ran with
  | number current => exact .number current
  | «variable» current bare => exact .variable current bare
  | emptyCall current opened closed => exact .emptyCall current opened closed
  | call current opened filled _ inside => exact .call current opened filled inside
  | callError current opened filled _ inside => exact .callError current opened filled inside
  | @group parser rest _ current _ closed inside =>
    exact @Runs.group _ _ parser.permitting rest.permitting _ current inside closed
  | @unclosedGroup parser rest _ current _ unclosed inside =>
    exact @Runs.unclosedGroup _ _ parser.permitting rest.permitting _ current inside unclosed
  | groupError current _ inside => exact .groupError current inside
  | noPrimary noNumber noName noGroup => exact .noPrimary noNumber noName noGroup
  | lastArgument _ closed first => exact .lastArgument first closed
  | moreArguments _ comma _ first others => exact .moreArguments first comma others
  | unclosedCall _ unclosed noComma first => exact .unclosedCall first unclosed noComma
  | argumentError _ first => exact .argumentError first
  | chain _ _ first links => exact .chain first links
  | chainError _ first => exact .chainError first
  | stop loose => exact .stop loose
  | link operator tight _ loose _ operand links => exact .link operator tight operand loose links
  | tighterLink operator tight _ tighter _ _ operand inside links =>
    exact .tighterLink operator tight operand tighter inside links
  | tighterError operator tight _ tighter _ operand inside =>
    exact .tighterError operator tight operand tighter inside
  | operandError operator tight _ operand => exact .operandError operator tight operand

/-- Expressions have no parameters to repeat. -/
theorem Runs.not_isRepetition {task : Task α} {outcome : Outcome τ α}
    (ran : Runs task parser outcome) :
    ∀ error, outcome.1 = .error error → ¬ error.IsRepetition := by
  induction ran with
  | number | «variable» | emptyCall | call | group | lastArgument | stop => nofun
  | unclosedGroup | noPrimary | unclosedCall =>
    rintro error ⟨⟩ ⟨name, impossible⟩
    contradiction
  | callError _ _ _ _ deeper | groupError _ _ deeper | argumentError _ deeper
  | chainError _ deeper | tighterError _ _ _ _ _ _ deeper | operandError _ _ _ deeper =>
    rintro _ ⟨⟩
    exact deeper _ rfl
  | moreArguments _ _ _ _ last | chain _ _ _ last | link _ _ _ _ _ _ last
  | tighterLink _ _ _ _ _ _ _ _ last => exact last

theorem expression_restricts (parser : Parser τ) :
    parser.expression.Restricts (fun _ => False) parser.permitting.expression := by
  have ran := runs .expression parser
  have same : parser.permitting.expression = parser.expression.permitting := ran.permitting.eq_run
  rw [same]
  exact .same _ ran.not_isRepetition

/-! ### Prototypes -/

/-- With the permission every name is taken. -/
private theorem parameters_permitting {name : String} (read : Array String)
    (current : parser.advance.current = .name name) :
    parser.permitting.parameters read =
      parser.advance.permitting.parameters (read.push name) := by
  rw [parameters_eq]
  simp only [show parser.permitting.advance.current = .name name from current]
  rfl

/-- What ends parameters badly does so with the permission as well. -/
private theorem parameters_restricts_of_end (read : Array String) {token : Token}
    (current : parser.advance.current = token) (noName : ∀ name, token ≠ .name name)
    (unclosed : token ≠ .symbol ')') {repeats : Array String → Prop} :
    Outcome.Restricts repeats (parser.advance.refuse .parametersEnd)
      (parser.permitting.parameters read) := by
  subst current
  have same : parser.permitting.parameters read =
      parser.permitting.advance.refuse .parametersEnd :=
    parameters_of_end read noName unclosed
  rw [same]
  exact Outcome.restricts_refuse _ _

/-- Strict reading stops at a parameter that was read before, and whatever permissive reading
answers then has it twice. -/
theorem parameters_restricts (read : Array String) (parser : Parser τ)
    (strict : parser.settings.allowRepeatedParameters = false) :
    (parser.parameters read).Restricts (fun names => ¬ names.toList.Nodup)
      (parser.permitting.parameters read) := by
  fun_induction parameters read parser with
  | case1 read parser name current repeated =>
    have member : name ∈ read.toList := by simpa [strict] using repeated
    rw [parameters_permitting read current]
    refine .stopped ⟨name, rfl⟩ (parameters_reachedFrom _ _) ?_
    intro names answer nodup
    obtain ⟨_, others, whole, _⟩ := parameters_reads (by rintro ⟨⟩) rfl (Prod.ext answer rfl)
    rw [whole, Array.toList_push, List.append_assoc] at nodup
    exact (List.nodup_append.mp nodup).2.2 name member name (by simp) rfl
  | case2 read parser name current fresh ih =>
    rw [parameters_permitting read current]
    exact ih strict
  | case3 read parser current =>
    have closes : parser.permitting.parameters read =
        (.ok read, parser.advance.advance.permitting) := by
      rw [parameters_eq]
      simp only [show parser.permitting.advance.current = .symbol ')' from current]
      rfl
    rw [closes]
    exact Outcome.restricts_ok _ _
  | case4 read parser char current unclosed =>
    exact parameters_restricts_of_end read current (by simp) (by simpa using unclosed)
  | case5 read _ _ current | case6 read _ current | case7 read _ current | case8 read _ current =>
    exact parameters_restricts_of_end read current (by simp) (by simp)

theorem prototype_restricts (parser : Parser τ)
    (strict : parser.settings.allowRepeatedParameters = false) :
    parser.prototype.Restricts (fun prototype => ¬ prototype.parameters.Nodup)
      parser.permitting.prototype := by
  by_cases named : ∃ name, parser.current = .name name
  · obtain ⟨name, current⟩ := named
    have same : parser.permitting.current = .name name := current
    unfold prototype
    simp only [current, same]
    by_cases opened : parser.advance.current = .symbol '('
    · have sameOpened : parser.permitting.advance.current = .symbol '(' := opened
      rw [if_pos opened, if_pos sameOpened]
      exact (parameters_restricts #[] parser.advance strict).map fun _ repeated => repeated
    · have sameUnopened : parser.permitting.advance.current ≠ .symbol '(' := opened
      rw [if_neg opened, if_neg sameUnopened]
      exact Outcome.restricts_refuse _ _
  · have noName (name : String) : parser.current ≠ .name name :=
      fun current => named ⟨name, current⟩
    have same : parser.permitting.prototype = parser.permitting.refuse .functionName :=
      prototype_of_other noName
    rw [prototype_of_other noName, same]
    exact Outcome.restricts_refuse _ _

/-! ### Items -/

/-- A function with a parameter that is named twice keeps it, whatever its body. -/
theorem definition_restricts (parser : Parser τ)
    (strict : parser.settings.allowRepeatedParameters = false) :
    parser.definition.Restricts (fun function => ¬ function.prototype.parameters.Nodup)
      parser.permitting.definition := by
  let entered := (parser.record (.parsing .definition parser.location)).advance
  apply (prototype_restricts entered strict).andThen
  · intro prototype rest _
    exact (expression_restricts rest).map fun _ impossible => impossible.elim
  · intro prototype rest
    exact (runs .expression rest).reachedFrom.map _
  · intro prototype rest function repeated answer
    obtain ⟨body, _, rfl⟩ := Outcome.map_eq_ok_iff.mp (Prod.ext answer rfl)
    exact repeated

theorem declaration_restricts (parser : Parser τ)
    (strict : parser.settings.allowRepeatedParameters = false) :
    parser.declaration.Restricts (fun prototype => ¬ prototype.parameters.Nodup)
      parser.permitting.declaration :=
  prototype_restricts (parser.record (.parsing .declaration parser.location)).advance strict

theorem bareExpression_restricts (parser : Parser τ) :
    parser.bareExpression.Restricts (fun _ => False) parser.permitting.bareExpression :=
  (expression_restricts (parser.record (.parsing .expression parser.location))).map
    fun _ impossible => impossible

/-- An item with a parameter that is named twice. -/
def RepeatsParameters (item : Item) : Prop := ¬ item.prototype.parameters.Nodup

/-- Where there is something to read, an item of the same kind is read with the permission. -/
theorem itemHere?_restricts (strict : parser.settings.allowRepeatedParameters = false)
    (found : parser.current ≠ .endOfInput) :
    ∃ kind, ∃ outcome other : Outcome τ Item,
      parser.itemHere? = (some ⟨kind, outcome.1⟩, outcome.2) ∧
      parser.permitting.itemHere? = (some ⟨kind, other.1⟩, other.2) ∧
      outcome.Restricts RepeatsParameters other := by
  have same : parser.permitting.current = parser.current := rfl
  unfold itemHere?
  rw [same]
  split
  · contradiction
  · exact ⟨_, _, _, rfl, rfl, (definition_restricts parser strict).map fun _ repeated => repeated⟩
  · exact ⟨_, _, _, rfl, rfl, (declaration_restricts parser strict).map fun _ repeated => repeated⟩
  all_goals
    exact ⟨_, _, _, rfl, rfl,
      (bareExpression_restricts parser).map fun _ impossible => impossible.elim⟩

theorem skipSemicolons_permitting (parser : Parser τ) :
    parser.permitting.skipSemicolons = parser.skipSemicolons.permitting := by
  fun_induction skipSemicolons parser with
  | case1 parser current ih =>
    have same : parser.permitting.current = .symbol ';' := current
    rw [skipSemicolons, if_pos same]
    exact ih
  | case2 parser other =>
    have same : parser.permitting.current ≠ .symbol ';' := other
    rw [skipSemicolons, if_neg same]

theorem item?_restricts (strict : parser.settings.allowRepeatedParameters = false) :
    (∃ rest, parser.item? = (none, rest) ∧ parser.permitting.item? = (none, rest.permitting)) ∨
    ∃ kind, ∃ outcome other : Outcome τ Item,
      parser.item? = (some ⟨kind, outcome.1⟩, outcome.2) ∧
      parser.permitting.item? = (some ⟨kind, other.1⟩, other.2) ∧
      outcome.Restricts RepeatsParameters other := by
  unfold item?
  rw [skipSemicolons_permitting]
  by_cases finished : parser.skipSemicolons.current = .endOfInput
  · have same : parser.skipSemicolons.permitting.current = .endOfInput := finished
    refine .inl ⟨parser.skipSemicolons, ?_, ?_⟩
    · rw [itemHere?, finished]
    · rw [itemHere?, same]
  · right
    apply itemHere?_restricts _ finished
    rw [settings_skipSemicolons]
    exact strict

/-! ### Programs -/

/-- What becomes of the items of an input, after those already read, as an outcome. -/
def program (read : Array Item) (parser : Parser τ) : Outcome τ (List Item) :=
  ((parser.items read).1.result, (parser.items read).2)

theorem program_of_none {read : Array Item} (attempt : parser.item? = (none, rest)) :
    parser.program read = (.ok read.toList, rest) := by
  rw [program, items_of_none attempt]
  rfl

theorem program_of_ok {read : Array Item} {kind : ItemKind} {item : Item}
    (attempt : parser.item? = (some ⟨kind, .ok item⟩, rest)) :
    parser.program read = rest.program (read.push item) := by
  rw [program, items_of_ok attempt]
  rfl

theorem program_of_error {read : Array Item} {kind : ItemKind} {error : ParseError}
    (attempt : parser.item? = (some ⟨kind, .error error⟩, rest)) :
    parser.program read = (.error error, rest) := by
  rw [program, items_of_error attempt]
  rfl

/-- The error of an attempt at an item is at the token that is then at hand. -/
theorem item?_reachedFrom {kind : ItemKind} {result : Except ParseError Item}
    (attempt : parser.item? = (some ⟨kind, result⟩, rest)) :
    Outcome.ReachedFrom parser (result, rest) := by
  obtain ⟨_, skips, _⟩ := skipSemicolons_passes parser
  have attempted := attempt ▸ attempts_item? parser
  cases result with
  | error error =>
    cases attempted with
    | rejected _ passes offender => exact ⟨⟨_, skips.append passes⟩, offender⟩
  | ok item =>
    cases attempted with
    | parsed passes => exact ⟨⟨_, skips.append passes⟩, trivial⟩

theorem program_reachedFrom (read : Array Item) (parser : Parser τ) :
    (parser.program read).ReachedFrom parser := by
  fun_induction items read parser with
  | case1 read parser rest attempt =>
    rw [program_of_none attempt]
    obtain ⟨_, skips, _⟩ := skipSemicolons_passes parser
    have attempted := attempt ▸ attempts_item? parser
    cases attempted with
    | finished => exact ⟨⟨_, skips⟩, trivial⟩
  | case2 read parser kind item rest attempt ih =>
    rw [program_of_ok attempt]
    obtain ⟨_, passes⟩ := (item?_reachedFrom attempt).passes
    exact ih.after passes
  | case3 read parser kind error rest attempt =>
    rw [program_of_error attempt]
    obtain ⟨passes, offender⟩ := item?_reachedFrom attempt
    exact ⟨passes, offender⟩

/-- Items once read stay in the program. -/
theorem prefix_of_program {read : Array Item} {all : List Item}
    (accepted : (parser.program read).1 = .ok all) : read.toList <+: all := by
  fun_induction items read parser with
  | case1 read parser rest attempt =>
    rw [program_of_none attempt] at accepted
    cases accepted
    exact List.prefix_rfl
  | case2 read parser kind item rest attempt ih =>
    rw [program_of_ok attempt] at accepted
    have whole := ih accepted
    rw [Array.toList_push] at whole
    exact (List.prefix_append _ _).trans whole
  | case3 read parser kind error rest attempt =>
    rw [program_of_error attempt] at accepted
    contradiction

/-- Without the permission a program is read as with it, or up to the first repetition. -/
theorem program_restricts (read : Array Item) (parser : Parser τ)
    (strict : parser.settings.allowRepeatedParameters = false) :
    (parser.program read).Restricts (fun items => ∃ item ∈ items, RepeatsParameters item)
      (parser.permitting.program read) := by
  fun_induction items read parser with
  | case1 read parser rest attempt =>
    rcases item?_restricts strict with ⟨_, attempt', permitted⟩ | ⟨_, _, _, attempt', _⟩
    · cases attempt.symm.trans attempt'
      rw [program_of_none attempt, program_of_none permitted]
      exact Outcome.restricts_ok _ _
    · cases attempt.symm.trans attempt'
  | case2 read parser kind item rest attempt ih =>
    rcases item?_restricts strict with ⟨_, attempt', _⟩ |
      ⟨_, outcome, other, attempt', permitted, restricts⟩
    · cases attempt.symm.trans attempt'
    · obtain ⟨_, passes⟩ := (item?_reachedFrom attempt).passes
      obtain ⟨result, left⟩ := outcome
      cases attempt.symm.trans attempt'
      cases restricts with
      | same =>
        rw [program_of_ok attempt, program_of_ok permitted]
        apply ih
        rw [passes.settings_eq]
        exact strict
  | case3 read parser kind error rest attempt =>
    rcases item?_restricts strict with ⟨_, attempt', _⟩ |
      ⟨_, outcome, other, attempt', permitted, restricts⟩
    · cases attempt.symm.trans attempt'
    · obtain ⟨result, left⟩ := outcome
      cases attempt.symm.trans attempt'
      rw [program_of_error attempt]
      cases restricts with
      | same _ other =>
        rw [program_of_error permitted]
        refine .same (.error error, left) ?_
        rintro _ ⟨⟩
        exact other error rfl
      | stopped repetition reached kept =>
        rcases other with ⟨error' | item, rest'⟩
        · rw [program_of_error permitted]
          refine .stopped repetition ⟨reached.passes, reached.atOffender⟩ ?_
          intro _ accepted
          cases accepted
        · rw [program_of_ok permitted]
          obtain ⟨_, passes⟩ := reached.passes
          refine .stopped repetition ((program_reachedFrom _ _).after passes) ?_
          intro all accepted
          have inside := (prefix_of_program accepted).subset (a := item) (by simp)
          exact ⟨item, inside, kept item rfl⟩

end Parser

end OpLang
