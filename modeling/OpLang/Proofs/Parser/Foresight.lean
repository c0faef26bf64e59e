import OpLang.Proofs.Parser.Items

/-! # No parser looks beyond the token it stops at

What a parser does is settled by the tokens that it passes and by the one at which it stops. So two
parsers that have these tokens in common end alike, over whatever sources and whatever follows:
with the same value, or with the same complaint.
-/

namespace OpLang

open Grammar

namespace Outcome

variable {τ τ' α β : Type}

/-- The same value, or the same fault, which may have been found at another place. -/
def Agrees (outcome : Outcome τ α) (other : Outcome τ' α) : Prop :=
  outcome.1.mapError (·.fault) = other.1.mapError (·.fault)

theorem agrees_ok_iff {value : α} {rest : Parser τ} {other : Outcome τ' α} :
    Agrees (.ok value, rest) other ↔ ∃ rest', other = (.ok value, rest') := by
  rcases other with ⟨error | value', rest'⟩
  · change Except.ok value = Except.error error.fault ↔ _
    simp
  · change Except.ok value = Except.ok value' ↔ _
    simp [eq_comm]

theorem agrees_error_iff {error : ParseError} {rest : Parser τ} {other : Outcome τ' α} :
    Agrees (.error error, rest) other ↔
      ∃ error' rest', other = (.error error', rest') ∧ error'.fault = error.fault := by
  rcases other with ⟨error' | value, rest'⟩
  · change Except.error error.fault = Except.error error'.fault ↔ _
    simp [eq_comm]
  · change Except.error error.fault = Except.ok value ↔ _
    simp

end Outcome

namespace Parser

variable {τ τ' α β : Type} [TokenSource τ] [TokenSource τ'] {parser middle rest : Parser τ}
  {other : Parser τ'} {last : List Token}

theorem current_eq_head? (parser : Parser τ) :
    parser.current = parser.upcoming.head?.getD .endOfInput := by
  by_cases finished : parser.current = .endOfInput
  · rw [upcoming_eq_nil_iff.mpr finished, finished]
    rfl
  · rw [upcoming_of_found finished]
    rfl

theorem Passes.upcoming_suffix {passed : List LocatedToken} (passes : Passes parser passed rest) :
    rest.upcoming <:+ parser.upcoming :=
  ⟨_, passes.upcoming_eq.symm⟩

theorem upcoming_advance_suffix (found : parser.current ≠ .endOfInput) :
    parser.advance.upcoming <:+ parser.upcoming :=
  (Passes.advance found (.stay _)).upcoming_suffix

end Parser

/-- Whatever becomes of a call, the tokens left are the last of those that were ahead. -/
theorem Outcome.ReachedFrom.upcoming_suffix {τ α : Type} [TokenSource τ] {parser : Parser τ}
    {outcome : Outcome τ α} (reached : outcome.ReachedFrom parser) :
    outcome.2.upcoming <:+ parser.upcoming := by
  obtain ⟨_, passes⟩ := reached.passes
  exact passes.upcoming_suffix

namespace Parser

variable {τ τ' α β : Type} [TokenSource τ] [TokenSource τ'] {parser middle rest : Parser τ}
  {other : Parser τ'} {last : List Token}

theorem Runs.upcoming_suffix {task : Task α} {outcome : Outcome τ α}
    (ran : Runs task parser outcome) : outcome.2.upcoming <:+ parser.upcoming :=
  ran.reachedFrom.upcoming_suffix

/-- Two parsers go by the same settings and have the same tokens ahead, up to and with the one
where only the last tokens of the first are left. -/
structure Shares (last : List Token) (parser : Parser τ) (other : Parser τ') : Prop where
  settings : other.settings = parser.settings
  tokens : ∃ passed others, parser.upcoming = passed ++ last ∧
    other.upcoming = passed ++ others ∧ others.head? = last.head?

namespace Shares

theorem current_eq (shares : Shares last parser other) : other.current = parser.current := by
  obtain ⟨_, passed, others, left, right, same⟩ := shares
  rw [current_eq_head?, current_eq_head?, left, right, List.head?_append, List.head?_append, same]

theorem operator?_eq (shares : Shares last parser other) : other.operator? = parser.operator? := by
  unfold operator?
  rw [shares.current_eq, shares.settings]

theorem precedence_eq (shares : Shares last parser other) :
    other.precedence = parser.precedence := by
  rw [Parser.precedence, shares.operator?_eq, Parser.precedence]

/-- The token at hand is passed by both as long as it is not the one to stop at. -/
theorem advance (shares : Shares last parser other) (found : parser.current ≠ .endOfInput)
    (left : last <:+ parser.advance.upcoming) : Shares last parser.advance other.advance := by
  have same := shares.current_eq
  obtain ⟨settings, passed, others, tokens, otherTokens, head⟩ := shares
  rw [upcoming_of_found found] at tokens
  rw [upcoming_of_found (same ▸ found)] at otherTokens
  cases passed with
  | nil =>
    have longer := congrArg List.length tokens
    have shorter := left.length_le
    simp only [List.length_cons, List.nil_append] at longer
    omega
  | cons token passed =>
    rw [List.cons_append, List.cons.injEq] at tokens otherTokens
    exact ⟨settings, passed, others, tokens.2, otherTokens.2, head⟩

/-- The name and the opening parenthesis of a call are passed by both. -/
theorem enterCall {name : String} (shares : Shares last parser other)
    (current : parser.current = .name name) (opened : parser.advance.current = .symbol '(')
    (left : last <:+ parser.advance.advance.upcoming) :
    Shares last parser.advance other.advance ∧
      Shares last parser.advance.advance other.advance.advance := by
  have opens : parser.advance.current ≠ .endOfInput := by rw [opened]; simp
  have named := shares.advance (by rw [current]; simp) (left.trans (upcoming_advance_suffix opens))
  exact ⟨named, named.advance opens left⟩

theorem record (shares : Shares last parser other) (event event' : Event) :
    Shares last (parser.record event) (other.record event') :=
  ⟨shares.settings, shares.tokens⟩

end Shares

omit [TokenSource τ] [TokenSource τ'] in
/-- Stopping for the same reason. -/
theorem agrees_fail (fault : ParseFault) :
    Outcome.Agrees (parser.fail fault : Outcome τ α) (other.fail fault : Outcome τ' α) := rfl

theorem agrees_refuse (shares : Shares last parser other) (wanted : Expectation) :
    Outcome.Agrees (parser.refuse wanted : Outcome τ α) (other.refuse wanted : Outcome τ' α) := by
  rw [refuse, refuse, shares.current_eq]
  exact agrees_fail _

/-- A call ends in the same way on another parser that shares the tokens it passes and the one at
which it stops, and both stop at that one. -/
theorem Runs.shared {task : Task α} {outcome : Outcome τ α} (ran : Runs task parser outcome)
    (shares : Shares last parser other) (left : last <:+ outcome.2.upcoming) :
    ∃ otherOutcome : Outcome τ' α, Runs task other otherOutcome ∧ outcome.Agrees otherOutcome ∧
      Shares last outcome.2 otherOutcome.2 := by
  induction ran generalizing other with
  | number current =>
    have passed := shares.advance (by rw [current]; simp) left
    exact ⟨_, .number (shares.current_eq.trans current), rfl, passed⟩
  | «variable» current bare =>
    have passed := shares.advance (by rw [current]; simp) left
    exact ⟨_, .variable (shares.current_eq.trans current) (passed.current_eq ▸ bare), rfl, passed⟩
  | emptyCall current opened closed =>
    have notLast := left.trans (upcoming_advance_suffix (by rw [closed]; simp))
    obtain ⟨named, entered⟩ := shares.enterCall current opened notLast
    have behind := entered.advance (by rw [closed]; simp) left
    exact ⟨_, .emptyCall (shares.current_eq.trans current) (named.current_eq.trans opened)
      (entered.current_eq.trans closed), rfl, behind⟩
  | call current opened filled ranInside inside =>
    have notLast := left.trans ranInside.upcoming_suffix
    obtain ⟨named, entered⟩ := shares.enterCall current opened notLast
    obtain ⟨_, otherRan, agrees, behind⟩ := inside entered left
    obtain ⟨_, rfl⟩ := Outcome.agrees_ok_iff.mp agrees
    exact ⟨_, .call (shares.current_eq.trans current) (named.current_eq.trans opened)
      (entered.current_eq ▸ filled) otherRan, rfl, behind⟩
  | callError current opened filled ranInside inside =>
    have notLast := left.trans ranInside.upcoming_suffix
    obtain ⟨named, entered⟩ := shares.enterCall current opened notLast
    obtain ⟨_, otherRan, agrees, behind⟩ := inside entered left
    obtain ⟨_, _, rfl, fault⟩ := Outcome.agrees_error_iff.mp agrees
    exact ⟨_, .callError (shares.current_eq.trans current) (named.current_eq.trans opened)
      (entered.current_eq ▸ filled) otherRan, Outcome.agrees_error_iff.mpr ⟨_, _, rfl, fault⟩,
      behind⟩
  | group current ranInside closed inside =>
    have notLast := left.trans (upcoming_advance_suffix (by rw [closed]; simp))
    have entered := shares.advance (by rw [current]; simp)
      (notLast.trans ranInside.upcoming_suffix)
    obtain ⟨_, otherRan, agrees, reached⟩ := inside entered notLast
    obtain ⟨_, rfl⟩ := Outcome.agrees_ok_iff.mp agrees
    exact ⟨_, .group (shares.current_eq.trans current) otherRan (reached.current_eq.trans closed),
      rfl, reached.advance (by rw [closed]; simp) left⟩
  | unclosedGroup current ranInside unclosed inside =>
    have entered := shares.advance (by rw [current]; simp) (left.trans ranInside.upcoming_suffix)
    obtain ⟨_, otherRan, agrees, reached⟩ := inside entered left
    obtain ⟨_, rfl⟩ := Outcome.agrees_ok_iff.mp agrees
    exact ⟨_, .unclosedGroup (shares.current_eq.trans current) otherRan
      (reached.current_eq ▸ unclosed), agrees_refuse reached _, reached.record _ _⟩
  | groupError current ranInside inside =>
    have entered := shares.advance (by rw [current]; simp) (left.trans ranInside.upcoming_suffix)
    obtain ⟨_, otherRan, agrees, behind⟩ := inside entered left
    obtain ⟨_, _, rfl, _⟩ := Outcome.agrees_error_iff.mp agrees
    exact ⟨_, .groupError (shares.current_eq.trans current) otherRan, agrees, behind⟩
  | noPrimary noNumber noName noGroup =>
    have same := shares.current_eq
    exact ⟨_, .noPrimary (same ▸ noNumber) (same ▸ noName) (same ▸ noGroup),
      agrees_refuse shares _, shares.record _ _⟩
  | lastArgument ranFirst closed first =>
    have notLast := left.trans (upcoming_advance_suffix (by rw [closed]; simp))
    obtain ⟨_, otherRan, agrees, reached⟩ := first shares notLast
    obtain ⟨_, rfl⟩ := Outcome.agrees_ok_iff.mp agrees
    exact ⟨_, .lastArgument otherRan (reached.current_eq.trans closed), rfl,
      reached.advance (by rw [closed]; simp) left⟩
  | moreArguments ranFirst comma ranOthers first others =>
    have behindComma := left.trans ranOthers.upcoming_suffix
    obtain ⟨_, otherRan, agrees, reached⟩ := first shares
      (behindComma.trans (upcoming_advance_suffix (by rw [comma]; simp)))
    obtain ⟨_, rfl⟩ := Outcome.agrees_ok_iff.mp agrees
    obtain ⟨_, otherRanOthers, othersAgree, behind⟩ :=
      others (reached.advance (by rw [comma]; simp) behindComma) left
    exact ⟨_, .moreArguments otherRan (reached.current_eq.trans comma) otherRanOthers, othersAgree,
      behind⟩
  | unclosedCall ranFirst unclosed noComma first =>
    obtain ⟨_, otherRan, agrees, reached⟩ := first shares left
    obtain ⟨_, rfl⟩ := Outcome.agrees_ok_iff.mp agrees
    have same := reached.current_eq
    exact ⟨_, .unclosedCall otherRan (same ▸ unclosed) (same ▸ noComma), agrees_refuse reached _,
      reached.record _ _⟩
  | argumentError ranFirst first =>
    obtain ⟨_, otherRan, agrees, behind⟩ := first shares left
    obtain ⟨_, _, rfl, fault⟩ := Outcome.agrees_error_iff.mp agrees
    exact ⟨_, .argumentError otherRan, Outcome.agrees_error_iff.mpr ⟨_, _, rfl, fault⟩, behind⟩
  | chain ranFirst ranLinks first links =>
    obtain ⟨_, otherRan, agrees, reached⟩ := first shares (left.trans ranLinks.upcoming_suffix)
    obtain ⟨_, rfl⟩ := Outcome.agrees_ok_iff.mp agrees
    obtain ⟨_, otherRanLinks, linksAgree, behind⟩ := links reached left
    exact ⟨_, .chain otherRan otherRanLinks, linksAgree, behind⟩
  | chainError ranFirst first =>
    obtain ⟨_, otherRan, agrees, behind⟩ := first shares left
    obtain ⟨_, _, rfl, _⟩ := Outcome.agrees_error_iff.mp agrees
    exact ⟨_, .chainError otherRan, agrees, behind⟩
  | stop loose => exact ⟨_, .stop (shares.operator?_eq ▸ loose), rfl, shares⟩
  | link operator tight ranOperand loose ranLinks operand links =>
    have notLast := left.trans ranLinks.upcoming_suffix
    have passed := shares.advance (current_ne_endOfInput_of_operator? operator)
      (notLast.trans ranOperand.upcoming_suffix)
    obtain ⟨_, otherRan, agrees, reached⟩ := operand passed notLast
    obtain ⟨_, rfl⟩ := Outcome.agrees_ok_iff.mp agrees
    obtain ⟨_, otherRanLinks, linksAgree, behind⟩ := links reached left
    exact ⟨_, .link (shares.operator?_eq.trans operator) tight otherRan
      (reached.precedence_eq ▸ loose) otherRanLinks, linksAgree, behind⟩
  | tighterLink operator tight ranOperand tighter ranInside ranLinks operand inside links =>
    have notLast := left.trans ranLinks.upcoming_suffix
    have notInside := notLast.trans ranInside.upcoming_suffix
    have passed := shares.advance (current_ne_endOfInput_of_operator? operator)
      (notInside.trans ranOperand.upcoming_suffix)
    obtain ⟨_, otherRan, agrees, reached⟩ := operand passed notInside
    obtain ⟨_, rfl⟩ := Outcome.agrees_ok_iff.mp agrees
    obtain ⟨_, otherRanInside, insideAgrees, climbed⟩ := inside reached notLast
    obtain ⟨_, rfl⟩ := Outcome.agrees_ok_iff.mp insideAgrees
    obtain ⟨_, otherRanLinks, linksAgree, behind⟩ := links climbed left
    exact ⟨_, .tighterLink (shares.operator?_eq.trans operator) tight otherRan
      (reached.precedence_eq ▸ tighter) otherRanInside otherRanLinks, linksAgree, behind⟩
  | tighterError operator tight ranOperand tighter ranInside operand inside =>
    have notLast := left.trans ranInside.upcoming_suffix
    have passed := shares.advance (current_ne_endOfInput_of_operator? operator)
      (notLast.trans ranOperand.upcoming_suffix)
    obtain ⟨_, otherRan, agrees, reached⟩ := operand passed notLast
    obtain ⟨_, rfl⟩ := Outcome.agrees_ok_iff.mp agrees
    obtain ⟨_, otherRanInside, insideAgrees, behind⟩ := inside reached left
    obtain ⟨_, _, rfl, _⟩ := Outcome.agrees_error_iff.mp insideAgrees
    exact ⟨_, .tighterError (shares.operator?_eq.trans operator) tight otherRan
      (reached.precedence_eq ▸ tighter) otherRanInside, insideAgrees, behind⟩
  | operandError operator tight ranOperand operand =>
    have passed := shares.advance (current_ne_endOfInput_of_operator? operator)
      (left.trans ranOperand.upcoming_suffix)
    obtain ⟨_, otherRan, agrees, behind⟩ := operand passed left
    obtain ⟨_, _, rfl, _⟩ := Outcome.agrees_error_iff.mp agrees
    exact ⟨_, .operandError (shares.operator?_eq.trans operator) tight otherRan, agrees, behind⟩

end Parser

namespace Outcome

variable {τ τ' α β : Type} [TokenSource τ] [TokenSource τ'] {outcome : Outcome τ α}
  {other : Outcome τ' α} {last : List Token}

/-- Two outcomes agree and leave parsers that still share their tokens. -/
structure Alike (last : List Token) (outcome : Outcome τ α) (other : Outcome τ' α) : Prop where
  agrees : outcome.Agrees other
  shares : Parser.Shares last outcome.2 other.2

theorem Alike.andThen {next : α → Parser τ → Outcome τ β} {next' : α → Parser τ' → Outcome τ' β}
    (left : last <:+ (outcome.andThen next).2.upcoming)
    (shortens : ∀ value rest, (next value rest).2.upcoming <:+ rest.upcoming)
    (alike : last <:+ outcome.2.upcoming → outcome.Alike last other)
    (onwards : ∀ value rest rest', Parser.Shares last rest rest' →
      last <:+ (next value rest).2.upcoming → (next value rest).Alike last (next' value rest')) :
    (outcome.andThen next).Alike last (other.andThen next') := by
  rcases outcome with ⟨error | value, rest⟩
  · obtain ⟨agrees, shares⟩ := alike left
    obtain ⟨error', rest', rfl, fault⟩ := agrees_error_iff.mp agrees
    exact ⟨agrees_error_iff.mpr ⟨error', rest', rfl, fault⟩, shares⟩
  · obtain ⟨agrees, shares⟩ := alike (left.trans (shortens value rest))
    obtain ⟨rest', rfl⟩ := agrees_ok_iff.mp agrees
    exact onwards value rest rest' shares left

theorem Alike.map {change : α → β} (left : last <:+ (outcome.map change).2.upcoming)
    (alike : last <:+ outcome.2.upcoming → outcome.Alike last other) :
    (outcome.map change).Alike last (other.map change) :=
  andThen left (fun _ _ => List.suffix_rfl) alike fun _ _ _ shares _ => ⟨rfl, shares⟩

omit [TokenSource τ] in
theorem andThen_eq_error_iff {next : α → Parser τ → Outcome τ β} {error : ParseError}
    {rest : Parser τ} : outcome.andThen next = (.error error, rest) ↔
      outcome = (.error error, rest) ∨ ∃ value middle, outcome = (.ok value, middle) ∧
        next value middle = (.error error, rest) := by
  rcases outcome with ⟨found | value, middle⟩
  · simp [andThen]
  · simp [andThen, and_assoc]

omit [TokenSource τ] in
theorem map_eq_error_iff (change : α → β) {error : ParseError} {rest : Parser τ} :
    outcome.map change = (.error error, rest) ↔ outcome = (.error error, rest) := by
  rcases outcome with ⟨found | value, middle⟩ <;> simp [map, andThen]

end Outcome

namespace Parser

variable {τ τ' : Type} [TokenSource τ] [TokenSource τ'] {parser : Parser τ} {other : Parser τ'}
  {last : List Token}

theorem expression_alike (shares : Shares last parser other)
    (left : last <:+ parser.expression.2.upcoming) :
    parser.expression.Alike last other.expression := by
  obtain ⟨_, ran, agrees, behind⟩ := (runs .expression parser).shared shares left
  obtain rfl := ran.eq_run
  exact ⟨agrees, behind⟩

/-- Parameters are read by the token behind the one at hand. -/
theorem parameters_eq (read : Array String) (parser : Parser τ) :
    parser.parameters read =
      match parser.advance.current with
      | .name name =>
        if !parser.settings.allowRepeatedParameters && read.contains name then
          parser.advance.fail (.repeatedParameter name)
        else parser.advance.parameters (read.push name)
      | .symbol char =>
        if char = ')' then (.ok read, parser.advance.advance)
        else parser.advance.refuse .parametersEnd
      | .number _ | .endOfInput | .define | .declare => parser.advance.refuse .parametersEnd := by
  rw [parameters]
  split <;> simp only [*]

theorem parameters_alike (read : Array String) (shares : Shares last parser other)
    (found : parser.current ≠ .endOfInput)
    (left : last <:+ (parser.parameters read).2.upcoming) :
    (parser.parameters read).Alike last (other.parameters read) := by
  have entered : Shares last parser.advance other.advance :=
    shares.advance found (left.trans (parameters_reachedFrom read parser).upcoming_suffix)
  fun_induction parameters read parser generalizing other with
  | case1 read parser name current repeated =>
    rw [parameters_eq, entered.current_eq, shares.settings, current]
    simp only [repeated, if_true]
    exact ⟨agrees_fail _, entered.record _ _⟩
  | case2 read parser name current fresh ih =>
    have named : parser.advance.current ≠ .endOfInput := by rw [current]; simp
    have behind := (parameters_reachedFrom (read.push name) parser.advance).upcoming_suffix
    rw [parameters_eq read other, entered.current_eq, shares.settings, current]
    simp only [fresh]
    exact ih entered named left (entered.advance named (left.trans behind))
  | case3 read parser current =>
    rw [parameters_eq, entered.current_eq, current]
    exact ⟨rfl, entered.advance (by rw [current]; simp) left⟩
  | case4 read parser char current unclosed =>
    rw [parameters_eq, entered.current_eq, current]
    simp only [unclosed, if_false]
    exact ⟨agrees_refuse entered _, entered.record _ _⟩
  | case5 _ _ _ current | case6 _ _ current | case7 _ _ current | case8 _ _ current =>
    rw [parameters_eq, entered.current_eq, current]
    exact ⟨agrees_refuse entered _, entered.record _ _⟩

theorem prototype_alike (shares : Shares last parser other)
    (left : last <:+ parser.prototype.2.upcoming) :
    parser.prototype.Alike last other.prototype := by
  have same := shares.current_eq
  unfold prototype at left ⊢
  rw [same]
  split at left
  · next name current =>
    have found : parser.current ≠ .endOfInput := by simp [current]
    split at left
    · next opened =>
      have opens : parser.advance.current ≠ .endOfInput := by rw [opened]; simp
      have inside := (parameters_reachedFrom #[] parser.advance).map
        (fun parameters => (⟨name, parameters.toList⟩ : Prototype))
      have named := shares.advance found
        (left.trans (inside.upcoming_suffix.trans (upcoming_advance_suffix opens)))
      simp only [opened, named.current_eq, if_true]
      exact .map left fun notLast => parameters_alike #[] named opens notLast
    · next unopened =>
      have named := shares.advance found left
      simp only [unopened, named.current_eq, if_false]
      exact ⟨agrees_refuse named _, named.record _ _⟩
  all_goals exact ⟨agrees_refuse shares _, shares.record _ _⟩

/-- A definition and a declaration begin with their reserved word and a prototype. -/
private theorem shares_behind_word {kind : ItemKind} (shares : Shares last parser other)
    (found : parser.current ≠ .endOfInput)
    (left : last <:+ (parser.record (.parsing kind parser.location)).advance.prototype.2.upcoming) :
    Shares last (parser.record (.parsing kind parser.location)).advance
      (other.record (.parsing kind other.location)).advance :=
  (shares.record _ _).advance found (left.trans (prototype_reachedFrom _).upcoming_suffix)

theorem definition_alike (shares : Shares last parser other) (found : parser.current ≠ .endOfInput)
    (left : last <:+ parser.definition.2.upcoming) :
    parser.definition.Alike last other.definition := by
  have shortens (prototype : Prototype) (rest : Parser τ) :
      (rest.expression.map (⟨prototype, ·⟩ : Expr → Function)).2.upcoming <:+ rest.upcoming :=
    ((runs .expression rest).reachedFrom.map _).upcoming_suffix
  refine .andThen left shortens ?_ ?_
  · intro notLast
    exact prototype_alike (shares_behind_word shares found notLast) notLast
  · intro prototype rest rest' behind bodyLeft
    exact .map bodyLeft (expression_alike behind)

theorem declaration_alike (shares : Shares last parser other)
    (found : parser.current ≠ .endOfInput) (left : last <:+ parser.declaration.2.upcoming) :
    parser.declaration.Alike last other.declaration :=
  prototype_alike (shares_behind_word shares found left) left

theorem bareExpression_alike (shares : Shares last parser other)
    (left : last <:+ parser.bareExpression.2.upcoming) :
    parser.bareExpression.Alike last other.bareExpression :=
  .map left (expression_alike (shares.record _ _))

omit [TokenSource τ] in
private theorem attempt_eq_error_iff {α : Type} {change : α → Item} {kind kind' : ItemKind}
    {error : ParseError} {rest : Parser τ} {outcome : Outcome τ α} :
    (some (ItemResult.mk kind' (outcome.map change).1), (outcome.map change).2) =
      (some ⟨kind, .error error⟩, rest) ↔ kind = kind' ∧ outcome = (.error error, rest) := by
  rw [← Outcome.map_eq_error_iff change]
  rcases outcome.map change with ⟨result, middle⟩
  simp [and_assoc, eq_comm (a := kind)]

/-- An item fails because the one that its first token announces does. -/
theorem itemHere?_eq_error_iff {kind : ItemKind} {error : ParseError} {rest : Parser τ} :
    parser.itemHere? = (some ⟨kind, .error error⟩, rest) ↔
      match parser.current with
      | .endOfInput => False
      | .define => kind = .definition ∧ parser.definition = (.error error, rest)
      | .declare => kind = .declaration ∧ parser.declaration = (.error error, rest)
      | .name _ | .number _ | .symbol _ =>
        kind = .expression ∧ parser.bareExpression = (.error error, rest) := by
  unfold itemHere?
  cases parser.current with
  | endOfInput => simp
  | define | declare | name | number | symbol => exact attempt_eq_error_iff

private theorem error_of_alike {α : Type} {error : ParseError} {rest : Parser τ}
    {outcome : Outcome τ α} {outcome' : Outcome τ' α} (failed : outcome = (.error error, rest))
    (alike : rest.upcoming <:+ outcome.2.upcoming → outcome.Alike rest.upcoming outcome') :
    ∃ error' rest', outcome' = (.error error', rest') ∧ error'.fault = error.fault := by
  subst failed
  exact Outcome.agrees_error_iff.mp (alike List.suffix_rfl).agrees

/-- An item that fails on a parser fails for the same reason on every other parser that shares the
tokens passed and the offender. -/
theorem itemHere?_error_shared {kind : ItemKind} {error : ParseError} {rest : Parser τ}
    (attempt : parser.itemHere? = (some ⟨kind, .error error⟩, rest))
    (shares : Shares rest.upcoming parser other) :
    ∃ error' rest', other.itemHere? = (some ⟨kind, .error error'⟩, rest') ∧
      error'.fault = error.fault := by
  simp only [itemHere?_eq_error_iff] at attempt ⊢
  rw [shares.current_eq]
  split at attempt
  · contradiction
  · next current =>
    obtain ⟨rfl, failed⟩ := attempt
    obtain ⟨error', rest', same, fault⟩ :=
      error_of_alike failed (definition_alike shares (by simp [current]))
    exact ⟨error', rest', ⟨rfl, same⟩, fault⟩
  · next current =>
    obtain ⟨rfl, failed⟩ := attempt
    obtain ⟨error', rest', same, fault⟩ :=
      error_of_alike failed (declaration_alike shares (by simp [current]))
    exact ⟨error', rest', ⟨rfl, same⟩, fault⟩
  all_goals
    obtain ⟨rfl, failed⟩ := attempt
    obtain ⟨error', rest', same, fault⟩ := error_of_alike failed (bareExpression_alike shares)
    exact ⟨error', rest', ⟨rfl, same⟩, fault⟩

end Parser

end OpLang
