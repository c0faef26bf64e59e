import OpLang.Proofs.Grammar.Program
import OpLang.Proofs.Parser.Derivations

/-! # Reading items

Prototypes and items are read straight from the left. For each function there is a lemma about what
every call passes, one about what a successful call has read, and one that finds the successful call
where a clause of the grammar stands and ends.
-/

namespace OpLang

namespace Outcome

variable {τ α β : Type} {outcome : Outcome τ α} {rest : Parser τ}

theorem andThen_eq_ok_iff {next : α → Parser τ → Outcome τ β} {value : β} :
    outcome.andThen next = (.ok value, rest) ↔
      ∃ first middle, outcome = (.ok first, middle) ∧ next first middle = (.ok value, rest) := by
  rcases outcome with ⟨_ | first, middle⟩
  · simp [andThen]
  · constructor
    · exact fun went => ⟨first, middle, rfl, went⟩
    · rintro ⟨_, _, same, went⟩
      cases same
      exact went

theorem map_eq_ok_iff {change : α → β} {value : β} : outcome.map change = (.ok value, rest) ↔
    ∃ first, outcome = (.ok first, rest) ∧ change first = value := by
  rcases outcome with ⟨_ | first, middle⟩
  · simp [map, andThen]
  · simp only [map, andThen, Prod.mk.injEq, Except.ok.injEq]
    constructor
    · rintro ⟨rfl, rfl⟩
      exact ⟨first, ⟨rfl, rfl⟩, rfl⟩
    · rintro ⟨_, ⟨rfl, rfl⟩, rfl⟩
      exact ⟨rfl, rfl⟩

end Outcome

namespace Parser

open Grammar

variable {τ : Type} [TokenSource τ] {parser rest : Parser τ} {settings : Settings}

/-! ### Prototypes -/

theorem parameters_reachedFrom (read : Array String) (parser : Parser τ) :
    (parser.parameters read).ReachedFrom parser.advance := by
  fun_induction parameters read parser with
  | case1 read parser name current _ =>
    exact Outcome.reachedFrom_fail current
  | case2 read parser name current _ ih =>
    exact ih.after (.advance (by rw [current]; simp) (.stay _))
  | case3 read parser current =>
    exact ⟨⟨_, .advance (by rw [current]; simp) (.stay _)⟩, trivial⟩
  | case4 | case5 | case6 | case7 | case8 => exact Outcome.reachedFrom_refuse _

theorem prototype_reachedFrom (parser : Parser τ) : parser.prototype.ReachedFrom parser := by
  unfold prototype
  split
  · next name current =>
    have passed : Passes parser [parser.here] parser.advance :=
      .advance (by rw [current]; simp) (.stay _)
    split
    · next opened =>
      have inside := (parameters_reachedFrom #[] parser.advance).after
        (passed.snoc (by rw [opened]; simp))
      exact inside.map _
    · exact (Outcome.reachedFrom_refuse _).after passed
  all_goals exact Outcome.reachedFrom_refuse _

omit [TokenSource τ] in
/-- A parameter that is not refused keeps the parameters distinct if they have to be. -/
theorem allowed_push {read : Array String} {name : String}
    (allowed : parser.settings.allowRepeatedParameters = false → read.toList.Nodup)
    (fresh : ¬ (!parser.settings.allowRepeatedParameters && read.contains name) = true) :
    parser.settings.allowRepeatedParameters = false → (read.push name).toList.Nodup := by
  intro forbidden
  have absent : name ∉ read.toList := by simpa [forbidden] using fresh
  rw [Array.toList_push]
  refine List.nodup_append.mpr ⟨allowed forbidden, by simp, ?_⟩
  rintro other member _ (_ | _) rfl
  · exact absent member
  · contradiction

/-- Parameters that were read are names up to a parenthesis, distinct if they have to be. -/
theorem parameters_reads {read names : Array String}
    (allowed : settings.allowRepeatedParameters = false → read.toList.Nodup)
    (known : parser.settings = settings) (answer : parser.parameters read = (.ok names, rest)) :
    (settings.allowRepeatedParameters = false → names.toList.Nodup) ∧
      ∃ others : List String, names.toList = read.toList ++ others ∧
        parser.advance.upcoming = others.map .name ++ .symbol ')' :: rest.upcoming := by
  fun_induction parameters read parser with
  | case1 => simp [Parser.fail] at answer
  | case2 read parser name current distinct ih =>
    have stillAllowed := allowed_push (known ▸ allowed) distinct
    obtain ⟨nodup, others, whole, upcoming⟩ := ih (known ▸ stillAllowed) known answer
    refine ⟨nodup, name :: others, ?_, ?_⟩
    · rw [whole, Array.toList_push, List.append_assoc, List.singleton_append]
    · rw [upcoming_of_current current (by simp), upcoming]
      rfl
  | case3 read parser current =>
    cases answer
    refine ⟨allowed, [], (List.append_nil _).symm, ?_⟩
    exact upcoming_of_current current (by simp)
  | case4 | case5 | case6 | case7 | case8 => simp [Parser.refuse, Parser.fail] at answer

theorem prototype_reads {prototype : Prototype}
    (answer : parser.prototype = (.ok prototype, rest)) :
    AllowsPrototype parser.settings prototype ∧
      parser.upcoming = prototypeTokens prototype ++ rest.upcoming := by
  unfold Parser.prototype at answer
  split at answer
  · next name current =>
    split at answer
    · next opened =>
      obtain ⟨names, read, rfl⟩ := Outcome.map_eq_ok_iff.mp answer
      obtain ⟨allowed, others, whole, upcoming⟩ := parameters_reads (by simp) rfl read
      refine ⟨allowed, ?_⟩
      rw [upcoming_of_current current (by simp), upcoming_of_current opened (by simp), upcoming,
        prototypeTokens, whole]
      simp
    · simp [Parser.refuse, Parser.fail] at answer
  all_goals simp [Parser.refuse, Parser.fail] at answer

/-- Names up to a parenthesis are read as parameters, unless one is repeated and must not be. -/
theorem parameters_of_tokens (read : Array String) (parser : Parser τ) {names : List String}
    {others : List Token}
    (allowed : parser.settings.allowRepeatedParameters = false → (read.toList ++ names).Nodup)
    (upcoming : parser.advance.upcoming = names.map .name ++ .symbol ')' :: others) :
    ∃ (all : Array String) (rest : Parser τ), parser.parameters read = (.ok all, rest) ∧
      all.toList = read.toList ++ names ∧ rest.upcoming = others := by
  induction names generalizing read parser with
  | nil =>
    obtain ⟨_, current, behind⟩ := upcoming_eq_cons_iff.mp upcoming
    refine ⟨read, parser.advance.advance, ?_, (List.append_nil _).symm, behind⟩
    rw [parameters]
    split
    · simp_all
    · next char found =>
      obtain rfl : char = ')' := Token.symbol.inj (found.symm.trans current)
      exact if_pos rfl
    all_goals simp_all
  | cons name names ih =>
    obtain ⟨_, current, behind⟩ := upcoming_eq_cons_iff.mp upcoming
    have fresh : ¬ (!parser.settings.allowRepeatedParameters && read.contains name) = true := by
      intro repeated
      obtain ⟨forbidden, member⟩ := Bool.and_eq_true_iff.mp repeated
      have nodup := allowed (by simpa using forbidden)
      exact (List.nodup_append.mp nodup).2.2 name (by simpa using member) name (by simp) rfl
    have shifted : (read.push name).toList ++ names = read.toList ++ name :: names := by
      rw [Array.toList_push, List.append_assoc, List.singleton_append]
    obtain ⟨all, rest, answer, whole, restUpcoming⟩ :=
      ih (read.push name) parser.advance (shifted ▸ allowed) behind
    refine ⟨all, rest, ?_, whole.trans shifted, restUpcoming⟩
    rw [parameters]
    split <;> simp_all

theorem prototype_of_tokens (parser : Parser τ) {prototype : Prototype} {others : List Token}
    (allowed : AllowsPrototype parser.settings prototype)
    (upcoming : parser.upcoming = prototypeTokens prototype ++ others) :
    ∃ rest : Parser τ, parser.prototype = (.ok prototype, rest) ∧ rest.upcoming = others := by
  obtain ⟨_, current, behind⟩ := upcoming_eq_cons_iff.mp upcoming
  obtain ⟨_, opened, inside⟩ := upcoming_eq_cons_iff.mp behind
  replace inside : parser.advance.advance.upcoming =
      prototype.parameters.map .name ++ .symbol ')' :: others := by simpa using inside
  obtain ⟨names, rest, answer, whole, restUpcoming⟩ :=
    parameters_of_tokens #[] parser.advance allowed inside
  refine ⟨rest, ?_, restUpcoming⟩
  rw [Parser.prototype]
  split
  · next name found =>
    obtain rfl : name = prototype.name := by simpa [found] using current
    rw [if_pos opened, answer]
    simp [Outcome.map, Outcome.andThen, whole]
  all_goals simp_all

/-! ### Clauses -/

/-- Between two states a clause was read. -/
def ReadsClause (parser : Parser τ) (kind : ItemKind) (item : Item) (rest : Parser τ) : Prop :=
  ∃ clause : Clause, clause.Fits parser.settings ∧ clause.kind = kind ∧
    clause.item parser.settings.operators.strength = item ∧
    parser.upcoming = clause.tokens ++ rest.upcoming

/-- What has been read of a clause is not nothing. -/
theorem ReadsClause.ne_nil {kind : ItemKind} {item : Item} {passed : List LocatedToken}
    (reads : ReadsClause parser kind item rest) (passes : Passes parser passed rest) :
    passed ≠ [] := by
  rintro rfl
  obtain ⟨clause, _, _, _, upcoming⟩ := reads
  obtain ⟨token, others, tokens, _⟩ := clause.tokens_eq_cons
  have nothing := passes.tokens_eq upcoming
  rw [tokens] at nothing
  contradiction

/-- An attempt at an item: there is none, or its clause was read, or it was given up at the token
that the error complains about. -/
inductive Attempts (parser : Parser τ) : Option ItemResult × Parser τ → Prop where
  | finished (current : parser.current = .endOfInput) : Attempts parser (none, parser)
  | parsed {kind : ItemKind} {item : Item} {rest : Parser τ} {passed : List LocatedToken}
    (passes : Passes parser passed rest) (reads : ReadsClause parser kind item rest) :
    Attempts parser (some ⟨kind, .ok item⟩, rest)
  | rejected {kind : ItemKind} {error : ParseError} {rest : Parser τ} {passed : List LocatedToken}
    (found : parser.current ≠ .endOfInput) (passes : Passes parser passed rest)
    (offender : rest.here = error.offender) : Attempts parser (some ⟨kind, .error error⟩, rest)

theorem expression_reads {operators : Operators} {tree : Expr}
    (table : parser.settings.operators = operators)
    (answer : parser.expression = (.ok tree, rest)) : ReadsChain operators parser tree rest := by
  have ran : Runs .expression parser (.ok tree, rest) := answer ▸ runs .expression parser
  exact ran.reads table

/-- Whatever token is taken for the reserved word, a definition stops behind it. -/
theorem definition_reachedFrom_behind (parser : Parser τ) :
    parser.definition.ReachedFrom (parser.record (.parsing .definition parser.location)).advance :=
  (prototype_reachedFrom _).andThen fun _ rest _ => (runs .expression rest).reachedFrom.map _

theorem definition_reachedFrom (found : parser.current ≠ .endOfInput) :
    parser.definition.ReachedFrom parser :=
  (definition_reachedFrom_behind parser).after (.record _ (.advance found (.stay _)))

theorem declaration_reachedFrom (found : parser.current ≠ .endOfInput) :
    parser.declaration.ReachedFrom parser :=
  (prototype_reachedFrom _).after (.record _ (.advance found (.stay _)))

theorem bareExpression_reachedFrom (parser : Parser τ) :
    parser.bareExpression.ReachedFrom parser := by
  have ran := (runs .expression (parser.record (.parsing .expression parser.location))).reachedFrom
  exact (ran.after (.record _ (.stay _))).map _

/-- Whatever token is taken for the reserved word, a prototype and a chain are read behind it. -/
theorem definition_reads_behind {function : Function}
    (answer : parser.definition = (.ok function, rest)) :
    AllowsPrototype parser.settings function.prototype ∧ ∃ chain : Chain,
      chain.Uses parser.settings.operators ∧
      chain.tree parser.settings.operators.strength = function.body ∧
      parser.advance.upcoming =
        prototypeTokens function.prototype ++ (chain.tokens ++ rest.upcoming) := by
  obtain ⟨prototype, middle, first, onwards⟩ := Outcome.andThen_eq_ok_iff.mp answer
  obtain ⟨body, second, rfl⟩ := Outcome.map_eq_ok_iff.mp onwards
  obtain ⟨allowed, prototypeRead⟩ := prototype_reads first
  obtain ⟨_, passes⟩ := (prototype_reachedFrom
    (parser.record (.parsing .definition parser.location)).advance).passes
  rw [first] at passes
  obtain ⟨chain, uses, rfl, chainRead, _⟩ :=
    expression_reads (congrArg (·.operators) passes.settings_eq) second
  refine ⟨allowed, chain, uses, rfl, ?_⟩
  rw [← chainRead, ← prototypeRead]
  rfl

theorem definition_reads {function : Function} (current : parser.current = .define)
    (answer : parser.definition = (.ok function, rest)) :
    ReadsClause parser .definition (.function function) rest := by
  obtain ⟨allowed, chain, uses, tree, read⟩ := definition_reads_behind answer
  refine ⟨.definition function.prototype chain, ⟨allowed, uses⟩, rfl, ?_, ?_⟩
  · rw [Clause.item, tree]
  · rw [upcoming_of_current current (by simp), Clause.tokens, List.cons_append, List.append_assoc,
      read]

theorem declaration_reads {prototype : Prototype} (current : parser.current = .declare)
    (answer : parser.declaration = (.ok prototype, rest)) :
    ReadsClause parser .declaration (.declaration prototype) rest := by
  obtain ⟨allowed, prototypeRead⟩ := prototype_reads answer
  refine ⟨.declaration prototype, allowed, rfl, rfl, ?_⟩
  rw [upcoming_of_current current (by simp), Clause.tokens, List.cons_append, ← prototypeRead]
  rfl

theorem bareExpression_reads {function : Function}
    (answer : parser.bareExpression = (.ok function, rest)) :
    ReadsClause parser .expression (.function function) rest := by
  obtain ⟨body, read, rfl⟩ := Outcome.map_eq_ok_iff.mp answer
  obtain ⟨chain, uses, rfl, chainRead, _⟩ := expression_reads rfl read
  exact ⟨.expression chain, uses, rfl, rfl, chainRead⟩

/-- An attempt is settled by what its outcome passes and what it reads. -/
private theorem attempts_of_outcome {kind : ItemKind} {outcome : Outcome τ Item}
    (found : parser.current ≠ .endOfInput) (reached : outcome.ReachedFrom parser)
    (reads : ∀ item rest, outcome = (.ok item, rest) → ReadsClause parser kind item rest) :
    Attempts parser (some ⟨kind, outcome.1⟩, outcome.2) := by
  obtain ⟨⟨passed, passes⟩, offender⟩ := reached
  rcases outcome with ⟨error | item, rest⟩
  · exact .rejected found passes offender
  · exact .parsed passes (reads item rest rfl)

/-- Every attempt at an item goes in one of the three ways. -/
theorem attempts (parser : Parser τ) : Attempts parser parser.itemHere? := by
  unfold itemHere?
  split
  · next current => exact .finished current
  · next current =>
    have found : parser.current ≠ .endOfInput := by simp [current]
    refine attempts_of_outcome found ((definition_reachedFrom found).map _) ?_
    intro item rest answer
    obtain ⟨function, defined, rfl⟩ := Outcome.map_eq_ok_iff.mp answer
    exact definition_reads current defined
  · next current =>
    have found : parser.current ≠ .endOfInput := by simp [current]
    refine attempts_of_outcome found ((declaration_reachedFrom found).map _) ?_
    intro item rest answer
    obtain ⟨prototype, declared, rfl⟩ := Outcome.map_eq_ok_iff.mp answer
    exact declaration_reads current declared
  all_goals
    next current =>
    have found : parser.current ≠ .endOfInput := by simp [current]
    refine attempts_of_outcome found ((bareExpression_reachedFrom parser).map _) ?_
    intro item rest answer
    obtain ⟨function, bare, rfl⟩ := Outcome.map_eq_ok_iff.mp answer
    exact bareExpression_reads bare

/-- A clause of the grammar is read wherever it ends. -/
theorem itemHere?_of_clause (spared : parser.settings.operators.Spares ['(', ')', ','])
    {clause : Clause} {others : List Token} (fits : clause.Fits parser.settings)
    (upcoming : parser.upcoming = clause.tokens ++ others)
    (ends : clause.Ends parser.settings others) :
    ∃ rest : Parser τ, rest.upcoming = others ∧ rest.settings = parser.settings ∧
      parser.itemHere? =
        (some ⟨clause.kind, .ok (clause.item parser.settings.operators.strength)⟩, rest) := by
  cases clause with
  | definition prototype body =>
    obtain ⟨allowed, uses⟩ := fits
    rw [Clause.tokens, List.cons_append, List.append_assoc] at upcoming
    obtain ⟨_, current, behind⟩ := upcoming_eq_cons_iff.mp upcoming
    let entered := (parser.record (.parsing .definition parser.location)).advance
    obtain ⟨middle, first, middleUpcoming⟩ :=
      prototype_of_tokens entered allowed behind
    have passes := (prototype_reachedFrom entered).passes
    rw [first] at passes
    obtain ⟨_, passes⟩ := passes
    have kept : middle.settings = parser.settings := passes.settings_eq
    obtain ⟨rest, restUpcoming, ran⟩ := (runs_of_tokens spared).2 body uses middle others
      (congrArg _ kept) middleUpcoming ends
    refine ⟨rest, restUpcoming, ran.settings_eq.trans kept, ?_⟩
    have read : parser.definition = (.ok ⟨prototype, body.tree _⟩, rest) :=
      Outcome.andThen_eq_ok_iff.mpr
        ⟨prototype, middle, first, Outcome.map_eq_ok_iff.mpr ⟨_, ran.eq_run, rfl⟩⟩
    simp only [itemHere?, current, read, Outcome.map, Outcome.andThen]
    rfl
  | declaration prototype =>
    obtain ⟨_, current, behind⟩ := upcoming_eq_cons_iff.mp upcoming
    let entered := (parser.record (.parsing .declaration parser.location)).advance
    obtain ⟨rest, first, restUpcoming⟩ := prototype_of_tokens entered fits behind
    have passes := (prototype_reachedFrom entered).passes
    rw [first] at passes
    obtain ⟨_, passes⟩ := passes
    refine ⟨rest, restUpcoming, passes.settings_eq, ?_⟩
    have read : parser.declaration = (.ok prototype, rest) := first
    simp only [itemHere?, current, read, Outcome.map, Outcome.andThen]
    rfl
  | expression body =>
    let noted := parser.record (.parsing .expression parser.location)
    obtain ⟨rest, restUpcoming, ran⟩ :=
      (runs_of_tokens spared).2 body fits noted others rfl upcoming ends
    refine ⟨rest, restUpcoming, ran.settings_eq, ?_⟩
    have read : parser.bareExpression = (.ok (.ofExpr (body.tree _)), rest) :=
      Outcome.map_eq_ok_iff.mpr ⟨_, ran.eq_run, rfl⟩
    obtain ⟨token, tokens, whole, opens⟩ := body.tokens_eq_cons
    rw [Clause.tokens, whole, List.cons_append] at upcoming
    obtain ⟨_, current, _⟩ := upcoming_eq_cons_iff.mp upcoming
    unfold itemHere?
    cases token with
    | endOfInput | define | declare => exact opens.elim
    | name | number | symbol =>
      simp only [current, read, Outcome.map, Outcome.andThen]
      rfl

end Parser

end OpLang
