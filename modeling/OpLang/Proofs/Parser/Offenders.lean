import OpLang.Proofs.Grammar.Writing
import OpLang.Proofs.Parser.Expressions
import OpLang.Proofs.Parser.Foresight
import OpLang.Proofs.Parser.Programs

/-! # Errors at the earliest token

Wherever an item fails, the tokens that were passed are the beginning of some clause, and with the
offender they are the beginning of none. A clause that begins with them is found by completing what
was being read, from the inside to the outside; that no clause goes on with the offender follows
from the parser itself, which would have to read that clause and would stop at the same token.
-/

namespace OpLang

namespace Grammar

variable {settings : Settings}

theorem found_of_mem_prototypeTokens (prototype : Prototype) :
    ∀ token ∈ prototypeTokens prototype, token ≠ .endOfInput := by
  intro token member
  simp only [prototypeTokens, List.mem_cons, List.mem_append, List.mem_map, List.not_mem_nil,
    or_false] at member
  rcases member with rfl | rfl | ⟨_, _, rfl⟩ | rfl <;> simp

theorem found_of_mem_clauseTokens (clause : Clause) :
    ∀ token ∈ clause.tokens, token ≠ .endOfInput := by
  cases clause with
  | definition prototype body =>
    exact List.forall_mem_cons.mpr ⟨by simp, List.forall_mem_append.mpr
      ⟨found_of_mem_prototypeTokens prototype, inside_of_mem_tokens.2 body⟩⟩
  | declaration prototype =>
    exact List.forall_mem_cons.mpr ⟨by simp, found_of_mem_prototypeTokens prototype⟩
  | expression body => exact inside_of_mem_tokens.2 body

/-- Tokens are the beginning of a clause of some kind, but with the offender behind them they are
the beginning of no clause at all; at the end of input they are no clause by themselves. What is
missing of the clause that they begin can be spelled. -/
structure EarliestOffender (settings : Settings) (kind : ItemKind) (passed : List Token)
    (offender : Token) : Prop where
  begins : ∃ (clause : Clause) (further : List Token), clause.kind = kind ∧ clause.Fits settings ∧
    clause.tokens = passed ++ further ∧ ∀ token ∈ further, token.IsSpelled
  refused : ∀ clause : Clause, clause.Fits settings → ¬ passed ++ [offender] <+: clause.tokens
  unfinished : offender = .endOfInput →
    ∀ clause : Clause, clause.Fits settings → clause.tokens ≠ passed

end Grammar

namespace Parser

open Grammar

variable {τ α : Type} [TokenSource τ] {operators : Operators} {settings : Settings}
  {parser middle rest : Parser τ} {tokens more : List Token}

/-- Between two states a parser passed a beginning of some tokens, and those that it did not get to
can be spelled. -/
def StopsIn (tokens : List Token) (parser rest : Parser τ) : Prop :=
  ∃ passed further, parser.upcoming = passed ++ rest.upcoming ∧ tokens = passed ++ further ∧
    ∀ token ∈ further, token.IsSpelled

namespace StopsIn

/-- Nothing was passed of tokens that can be spelled. -/
theorem start (spelled : ∀ token ∈ tokens, token.IsSpelled) : StopsIn tokens parser parser :=
  ⟨[], tokens, rfl, rfl, spelled⟩

/-- More tokens may be passed first. -/
theorem after (front : List Token) (stops : StopsIn tokens middle rest)
    (read : parser.upcoming = front ++ middle.upcoming) :
    StopsIn (front ++ tokens) parser rest := by
  obtain ⟨passed, further, ahead, rfl, spelled⟩ := stops
  refine ⟨front ++ passed, further, ?_, (List.append_assoc _ _ _).symm, spelled⟩
  rw [read, ahead, List.append_assoc]

/-- More tokens may be missing at the end. -/
theorem before (stops : StopsIn tokens parser rest) (spelled : ∀ token ∈ more, token.IsSpelled) :
    StopsIn (tokens ++ more) parser rest := by
  obtain ⟨passed, further, ahead, rfl, furtherSpelled⟩ := stops
  exact ⟨passed, further ++ more, ahead, List.append_assoc _ _ _,
    List.forall_mem_append.mpr ⟨furtherSpelled, spelled⟩⟩

end StopsIn

/-- A primary to complete an expression with. -/
def filler : Primary := .number (Literal.value ['0'])

theorem isSpelled_filler : ∀ token ∈ filler.tokens, token.IsSpelled :=
  List.forall_mem_singleton.mpr
    ⟨['0'], .literal (List.cons_ne_nil _ _) (List.forall_mem_singleton.mpr (by decide))⟩

theorem isSpelled_closing : ∀ token ∈ [Token.symbol ')'], token.IsSpelled :=
  List.forall_mem_singleton.mpr (IsSign.isSpelled (by decide))

/-- What a call that fails was reading can be completed. -/
def Completes (operators : Operators) : {α : Type} → Task α → Parser τ → Outcome τ α → Prop
  | _, .primary, parser, (.error _, rest) =>
    ∃ primary : Primary, primary.Uses operators ∧ StopsIn primary.tokens parser rest
  | _, .arguments _, parser, (.error _, rest) =>
    ∃ arguments : List Chain, arguments ≠ [] ∧ ArgumentsUse operators arguments ∧
      StopsIn (argumentTokens arguments ++ [.symbol ')']) parser rest
  | _, .expression, parser, (.error _, rest) =>
    ∃ chain : Chain, chain.Uses operators ∧ StopsIn chain.tokens parser rest
  | _, .climb _ _, parser, (.error _, rest) =>
    ∃ links : List (Char × Primary), LinksUse operators links ∧
      StopsIn (linkTokens links) parser rest
  | _, _, _, (.ok _, _) => True

/-- Between two states links were passed, and further links complete what was being read. -/
private theorem completes_links {links : List (Char × Primary)}
    (uses : LinksUse operators links)
    (read : parser.upcoming = linkTokens links ++ middle.upcoming)
    (completes : ∃ others : List (Char × Primary), LinksUse operators others ∧
      StopsIn (linkTokens others) middle rest) :
    ∃ others : List (Char × Primary), LinksUse operators others ∧
      StopsIn (linkTokens others) parser rest := by
  obtain ⟨others, othersUse, stops⟩ := completes
  rw [linksUse_iff] at uses othersUse
  refine ⟨links ++ others, linksUse_iff.mpr (List.forall_mem_append.mpr ⟨uses, othersUse⟩), ?_⟩
  rw [linkTokens_append]
  exact stops.after _ read

/-- An operator and the operand behind it are a link. -/
private theorem reads_link {char : Char} {precedence : Int32} {right : Expr}
    (table : parser.settings.operators = operators)
    (operator : parser.operator? = some (char, precedence))
    (ran : Runs .primary parser.advance (.ok right, middle)) :
    ∃ operand : Primary, LinksUse operators [(char, operand)] ∧
      parser.upcoming = linkTokens [(char, operand)] ++ middle.upcoming := by
  obtain ⟨operand, uses, _, tokens⟩ := ran.reads table
  refine ⟨operand, ⟨(strength_of_operator? table operator).1, uses, trivial⟩, ?_⟩
  rw [upcoming_of_operator? operator, tokens, linkTokens, linkTokens, List.append_nil]
  rfl

/-- Every failing run can be completed from where it stopped. -/
theorem Runs.completes {task : Task α} {outcome : Outcome τ α} (ran : Runs task parser outcome)
    (table : parser.settings.operators = operators) :
    Completes operators task parser outcome := by
  induction ran with
  | number | «variable» | emptyCall | call | group | lastArgument | stop => trivial
  | @callError _ _ name _ current opened _ _ inside =>
    obtain ⟨arguments, _, uses, stops⟩ := inside table
    refine ⟨.call name arguments, uses, stops.after [.name name, .symbol '('] ?_⟩
    rw [upcoming_of_current current (by simp), upcoming_of_current opened (by simp)]
    rfl
  | unclosedGroup current ranInside _ _ =>
    obtain ⟨chain, uses, _, tokens, _⟩ := ranInside.reads table
    refine ⟨.group chain, uses, .symbol '(' :: chain.tokens, [.symbol ')'], ?_, rfl,
      isSpelled_closing⟩
    rw [upcoming_of_current current (by simp), tokens]
    rfl
  | groupError current _ inside =>
    obtain ⟨chain, uses, stops⟩ := inside table
    refine ⟨.group chain, uses, (stops.before isSpelled_closing).after [.symbol '('] ?_⟩
    exact upcoming_of_current current (by simp)
  | noPrimary => exact ⟨filler, trivial, .start isSpelled_filler⟩
  | @moreArguments _ _ _ _ outcome ranFirst comma _ _ others =>
    rcases outcome with ⟨_ | _, rest⟩
    · obtain ⟨arguments, filled, uses, stops⟩ := others (ranFirst.table_eq table)
      obtain ⟨chain, chainUses, _, tokens, _⟩ := ranFirst.reads table
      refine ⟨chain :: arguments, by simp, ⟨chainUses, uses⟩, ?_⟩
      have behind := stops.after (chain.tokens ++ [.symbol ',']) <| by
        rw [tokens, upcoming_of_current comma (by simp), List.append_assoc]
        rfl
      rw [argumentTokens_cons chain filled]
      simpa only [List.append_assoc, List.cons_append, List.nil_append] using behind
    · trivial
  | unclosedCall ranFirst _ _ _ =>
    obtain ⟨chain, uses, _, tokens, _⟩ := ranFirst.reads table
    exact ⟨[chain], by simp, ⟨uses, trivial⟩, chain.tokens, [.symbol ')'], tokens, rfl,
      isSpelled_closing⟩
  | argumentError _ first =>
    obtain ⟨chain, uses, stops⟩ := first table
    exact ⟨[chain], by simp, ⟨uses, trivial⟩, stops.before isSpelled_closing⟩
  | @chain _ _ _ outcome ranFirst _ _ links =>
    rcases outcome with ⟨_ | _, rest⟩
    · obtain ⟨row, rowUses, stops⟩ := links (ranFirst.table_eq table)
      obtain ⟨primary, uses, _, tokens⟩ := ranFirst.reads table
      exact ⟨⟨primary, row⟩, ⟨uses, rowUses⟩, stops.after _ tokens⟩
    · trivial
  | chainError _ first =>
    obtain ⟨primary, uses, stops⟩ := first table
    exact ⟨⟨primary, []⟩, ⟨uses, trivial⟩, stops.before (by simp [linkTokens])⟩
  | @link _ _ _ _ _ _ _ outcome operator _ ranOperand _ _ _ links =>
    rcases outcome with ⟨_ | _, rest⟩
    · obtain ⟨_, uses, tokens⟩ := reads_link table operator ranOperand
      exact completes_links uses tokens (links (ranOperand.table_eq table))
    · trivial
  | @tighterLink _ _ _ _ _ _ _ _ _ outcome operator _ ranOperand _ ranInside _ _ _ links =>
    rcases outcome with ⟨_ | _, rest⟩
    · have middleTable := ranOperand.table_eq table
      obtain ⟨_, uses, tokens⟩ := reads_link table operator ranOperand
      obtain ⟨_, innerUse, _, innerTokens, _⟩ := ranInside.reads middleTable
      exact completes_links uses tokens
        (completes_links innerUse innerTokens (links (ranInside.table_eq middleTable)))
    · trivial
  | tighterError operator _ ranOperand _ _ _ inside =>
    obtain ⟨_, uses, tokens⟩ := reads_link table operator ranOperand
    exact completes_links uses tokens (inside (ranOperand.table_eq table))
  | @operandError _ _ _ _ _ char _ operator _ _ operand =>
    obtain ⟨primary, uses, stops⟩ := operand table
    have effective := (strength_of_operator? table operator).1
    refine ⟨[(char, primary)], ⟨effective, uses, trivial⟩, ?_⟩
    have behind := stops.after [.symbol char] (upcoming_of_operator? operator)
    exact behind.before (by simp [linkTokens])

/-! ### Items -/

theorem expression_completes {error : ParseError} (table : parser.settings.operators = operators)
    (answer : parser.expression = (.error error, rest)) :
    ∃ chain : Chain, chain.Uses operators ∧ StopsIn chain.tokens parser rest := by
  have ran : Runs .expression parser (.error error, rest) := answer ▸ runs .expression parser
  exact ran.completes table

/-- Parameters that fail can be completed by those read on the way and the closing parenthesis. -/
theorem parameters_completes {read : Array String} {error : ParseError}
    (allowed : parser.settings.allowRepeatedParameters = false → read.toList.Nodup)
    (answer : parser.parameters read = (.error error, rest)) :
    ∃ names : List String,
      (parser.settings.allowRepeatedParameters = false → (read.toList ++ names).Nodup) ∧
      StopsIn (names.map .name ++ [.symbol ')']) parser.advance rest := by
  fun_induction parameters read parser with
  | case2 read parser name current fresh ih =>
    obtain ⟨names, distinct, stops⟩ := ih (allowed_push allowed fresh) answer
    rw [Array.toList_push, List.append_assoc, List.singleton_append] at distinct
    exact ⟨name :: names, distinct,
      stops.after [.name name] (upcoming_of_current current (by simp))⟩
  | case3 => simp at answer
  | case1 | case4 | case5 | case6 | case7 | case8 =>
    cases answer
    exact ⟨[], by simpa using allowed, .start isSpelled_closing⟩

theorem isSpelled_parentheses :
    ∀ token ∈ [Token.symbol '(', .symbol ')'], token.IsSpelled :=
  List.forall_mem_cons.mpr ⟨IsSign.isSpelled (by decide), isSpelled_closing⟩

/-- A prototype that fails can be completed, by a name of its own if it has none yet. -/
theorem prototype_completes {error : ParseError}
    (answer : parser.prototype = (.error error, rest)) :
    ∃ prototype : Prototype, AllowsPrototype parser.settings prototype ∧
      StopsIn (prototypeTokens prototype) parser rest := by
  unfold Parser.prototype at answer
  split at answer
  · next name current =>
    have passed : parser.upcoming = [.name name] ++ parser.advance.upcoming :=
      upcoming_of_current current (by simp)
    split at answer
    · next opened =>
      obtain ⟨names, distinct, stops⟩ :=
        parameters_completes (by simp) ((Outcome.map_eq_error_iff _).mp answer)
      have entered := stops.after [.symbol '('] (upcoming_of_current opened (by simp))
      exact ⟨⟨name, names⟩, distinct, entered.after _ passed⟩
    · cases answer
      have entered : StopsIn (prototypeTokens ⟨name, []⟩) parser parser.advance :=
        (StopsIn.start isSpelled_parentheses).after _ passed
      exact ⟨⟨name, []⟩, fun _ => List.nodup_nil, entered⟩
  all_goals
    cases answer
    exact ⟨⟨"f", []⟩, fun _ => List.nodup_nil, .start (List.forall_mem_cons.mpr
      ⟨IsName.isSpelled (by decide), isSpelled_parentheses⟩)⟩

/-- An item that fails can be completed. -/
theorem itemHere?_completes {kind : ItemKind} {error : ParseError}
    (attempt : parser.itemHere? = (some ⟨kind, .error error⟩, rest)) :
    ∃ clause : Clause, clause.kind = kind ∧ clause.Fits parser.settings ∧
      StopsIn clause.tokens parser rest := by
  rw [itemHere?_eq_error_iff] at attempt
  split at attempt
  · contradiction
  · next current =>
    obtain ⟨rfl, failed⟩ := attempt
    let entered := (parser.record (.parsing .definition parser.location)).advance
    have passed : parser.upcoming = [.define] ++ entered.upcoming :=
      upcoming_of_current current (by simp)
    rcases Outcome.andThen_eq_error_iff.mp failed with unnamed | ⟨prototype, middle, named, failed⟩
    · obtain ⟨prototype, allowed, stops⟩ := prototype_completes unnamed
      exact ⟨.definition prototype ⟨filler, []⟩, rfl, ⟨allowed, trivial, trivial⟩,
        (stops.before isSpelled_filler).after _ passed⟩
    · obtain ⟨allowed, read⟩ := prototype_reads named
      obtain ⟨_, passes⟩ := (prototype_reachedFrom entered).passes
      rw [named] at passes
      obtain ⟨body, uses, stops⟩ := expression_completes (congrArg (·.operators) passes.settings_eq)
        ((Outcome.map_eq_error_iff _).mp failed)
      exact ⟨.definition prototype body, rfl, ⟨allowed, uses⟩,
        (stops.after _ read).after _ passed⟩
  · next current =>
    obtain ⟨rfl, failed⟩ := attempt
    obtain ⟨prototype, allowed, stops⟩ := prototype_completes failed
    exact ⟨.declaration prototype, rfl, allowed,
      stops.after [.declare] (upcoming_of_current current (by simp))⟩
  all_goals
    obtain ⟨rfl, failed⟩ := attempt
    obtain ⟨body, uses, stops⟩ := expression_completes rfl ((Outcome.map_eq_error_iff _).mp failed)
    exact ⟨.expression body, rfl, uses, stops⟩

/-! ### Offenders -/

/-- No clause goes on behind the tokens that were passed as the input of a failing parser does. -/
theorem clause_differs_of_error {kind : ItemKind} {error : ParseError}
    (spared : parser.settings.operators.Spares ['(', ')', ','])
    (attempt : parser.itemHere? = (some ⟨kind, .error error⟩, rest)) {passed others : List Token}
    (read : parser.upcoming = passed ++ rest.upcoming) {clause : Clause}
    (fits : clause.Fits parser.settings) (tokens : clause.tokens = passed ++ others) :
    others.head? ≠ rest.upcoming.head? := by
  -- A parser over the clause alone reads it, although it shares all that made the other one fail.
  intro same
  let other := ofTokenList clause.tokens parser.settings
  have upcoming : other.upcoming = clause.tokens :=
    upcoming_ofTokenList _ (found_of_mem_clauseTokens clause)
  have shares : Shares rest.upcoming parser other :=
    ⟨rfl, passed, others, read, upcoming.trans tokens, same⟩
  obtain ⟨_, _, failed, _⟩ := itemHere?_error_shared attempt shares
  have whole : other.upcoming = clause.tokens ++ [] := by rw [upcoming, List.append_nil]
  obtain ⟨_, _, _, accepted⟩ :=
    @itemHere?_of_clause _ _ other spared clause [] fits whole clause.ends_nil
  simp [failed] at accepted

/-- An error is reported at the earliest token that it could be: behind the semicolons in front of
the item, the tokens passed and the offender are as `EarliestOffender` says. -/
theorem offender_earliest (parser : Parser τ)
    (spared : parser.settings.operators.Spares ['(', ')', ',', ';']) {kind : ItemKind}
    {error : ParseError} (attempt : parser.item? = (some ⟨kind, .error error⟩, rest)) :
    ∃ semicolons passed : List LocatedToken,
      Passes parser semicolons parser.skipSemicolons ∧
      (∀ token ∈ semicolons, token.token = .symbol ';') ∧
      Passes parser.skipSemicolons passed rest ∧ rest.here = error.offender ∧
      EarliestOffender parser.settings kind (passed.map (·.token)) error.offender.token := by
  obtain ⟨semicolons, skips, only⟩ := skipSemicolons_passes parser
  have kept := settings_skipSemicolons parser
  have failed : parser.skipSemicolons.itemHere? = (some ⟨kind, .error error⟩, rest) := attempt
  have attempted := failed ▸ attempts parser.skipSemicolons
  cases attempted with
  | @rejected _ _ _ passed _ passes offender =>
    have read := passes.upcoming_eq
    have same : error.offender.token = rest.current := congrArg (·.token) offender.symm
    obtain ⟨clause, isKind, fits, first, further, stopped, tokens, spelled⟩ :=
      itemHere?_completes failed
    obtain rfl : first = passed.map (·.token) :=
      List.append_cancel_right (stopped.symm.trans read)
    have fewer : parser.skipSemicolons.settings.operators.Spares ['(', ')', ','] := by
      rw [kept]
      exact fun char member => spared char (List.mem_append_left [';'] member)
    refine ⟨semicolons, passed, skips, only, passes, offender,
      ⟨clause, further, isKind, kept ▸ fits, tokens, spelled⟩, ?_, ?_⟩
    · rintro other otherFits ⟨others, whole⟩
      rw [same] at whole
      have found : rest.current ≠ .endOfInput :=
        found_of_mem_clauseTokens other _ (by rw [← whole]; simp)
      have goesOn : other.tokens = passed.map (·.token) ++ rest.current :: others := by
        rw [← whole, List.append_assoc, List.singleton_append]
      refine clause_differs_of_error fewer failed read (kept.symm ▸ otherFits) goesOn ?_
      rw [upcoming_of_found found, List.head?_cons, List.head?_cons]
    · intro finished other otherFits whole
      refine clause_differs_of_error fewer failed read (kept.symm ▸ otherFits)
        (whole.trans (List.append_nil _).symm) ?_
      rw [upcoming_eq_nil_iff.mpr (same.symm.trans finished)]

/-- The second `x` is refused where it stands, long before the parentheses are closed. -/
theorem offender_earliest_of_repetition :
    let parser := (parserOfText ⟨.standard, false⟩ "; def f(x y x) x").advance
    parser.settings.operators.Spares ['(', ')', ',', ';'] ∧
      ∃ error rest, parser.item? = (some ⟨.definition, .error error⟩, rest) ∧
        error = ⟨.repeatedParameter "x", ⟨1, 13⟩⟩ ∧
        ∃ semicolons passed : List LocatedToken,
          Passes parser semicolons parser.skipSemicolons ∧
          (∀ token ∈ semicolons, token.token = .symbol ';') ∧
          Passes parser.skipSemicolons passed rest ∧ rest.here = error.offender ∧
          EarliestOffender parser.settings .definition (passed.map (·.token))
            error.offender.token := by
  intro parser
  have spared : parser.settings.operators.Spares ['(', ')', ',', ';'] := by decide +kernel
  have answer : parser.item?.1.map (fun item =>
      (item.kind, match item.result with | .ok _ => none | .error error => some error)) =
      some (.definition, some ⟨.repeatedParameter "x", ⟨1, 13⟩⟩) := by decide +kernel
  refine ⟨spared, ?_⟩
  rcases attempt : parser.item? with ⟨_ | ⟨kind, error | item⟩, rest⟩
  · simp [attempt] at answer
  · simp only [attempt, Option.map_some, Option.some.injEq, Prod.mk.injEq] at answer
    obtain ⟨rfl, rfl⟩ := answer
    exact ⟨_, rest, rfl, rfl, offender_earliest parser spared attempt⟩
  · simp [attempt] at answer

end Parser

end OpLang
