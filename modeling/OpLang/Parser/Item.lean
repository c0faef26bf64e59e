import OpLang.Parser.Expression

/-! # Parsing items

A definition is its reserved word, a prototype and an expression; a declaration is its reserved word
and a prototype; anything else is read as a bare expression. Semicolons before an item are skipped.
-/

namespace OpLang

/-- What became of an item: its kind, known from its first token, and the item or an error. -/
structure ItemResult where
  kind : ItemKind
  result : Except ParseError Item

namespace Outcome

variable {τ α β : Type}

/-- Go on from a value; an error stays as it is. -/
def andThen (outcome : Outcome τ α) (next : α → Parser τ → Outcome τ β) : Outcome τ β :=
  match outcome with
  | (.ok value, parser) => next value parser
  | (.error error, parser) => (.error error, parser)

/-- Change a value; an error stays as it is. -/
def map (outcome : Outcome τ α) (change : α → β) : Outcome τ β :=
  outcome.andThen fun value parser => (.ok (change value), parser)

variable [TokenSource τ] {before : Parser τ}

theorem Shortens.andThen {outcome : Outcome τ α} {next : α → Parser τ → Outcome τ β}
    (shortens : outcome.Shortens before)
    (onwards : ∀ value after, after.size < before.size → (next value after).Shortens before) :
    (outcome.andThen next).Shortens before := by
  rcases outcome with ⟨_ | value, after⟩
  · exact shortens
  · exact onwards value after shortens

theorem Shortens.map {outcome : Outcome τ α} (shortens : outcome.Shortens before)
    (change : α → β) : (outcome.map change).Shortens before :=
  shortens.andThen fun _ _ smaller => smaller

end Outcome

namespace Parser

variable {τ : Type} [TokenSource τ]

/-- Read parameters, after those already read, from the token before the next one up to and with the
closing parenthesis. -/
def parameters (read : Array String) (parser : Parser τ) : Outcome τ (Array String) :=
  match _ : parser.advance.current with
  | .name name =>
    if !parser.settings.allowRepeatedParameters && read.contains name then
      parser.advance.fail (.repeatedParameter name)
    else parameters (read.push name) parser.advance
  | .symbol char =>
    if char = ')' then (.ok read, parser.advance.advance)
    else parser.advance.refuse .parametersEnd
  | .number _ | .endOfInput | .define | .declare => parser.advance.refuse .parametersEnd
termination_by TokenSource.remaining parser.tokens
decreasing_by
  apply TokenSource.remaining_next_lt
  rw [← current_advance, ‹parser.advance.current = .name _›]
  simp

/-- Read the name of a function and its parameters in parentheses. -/
def prototype (parser : Parser τ) : Outcome τ Prototype :=
  match parser.current with
  | .name name =>
    if parser.advance.current = .symbol '(' then
      (parser.advance.parameters #[]).map fun parameters => ⟨name, parameters.toList⟩
    else parser.advance.refuse .parameters
  | .number _ | .symbol _ | .endOfInput | .define | .declare => parser.refuse .functionName

/-- Read a definition; the token at hand is taken for its reserved word. -/
def definition (parser : Parser τ) : Outcome τ Function :=
  (parser.record (.parsing .definition parser.location)).advance.prototype.andThen
    fun prototype rest => rest.expression.map fun body => ⟨prototype, body⟩

/-- Read a declaration; the token at hand is taken for its reserved word. -/
def declaration (parser : Parser τ) : Outcome τ Prototype :=
  (parser.record (.parsing .declaration parser.location)).advance.prototype

/-- Read a bare expression. -/
def bareExpression (parser : Parser τ) : Outcome τ Function :=
  (parser.record (.parsing .expression parser.location)).expression.map .ofExpr

/-- Pass the semicolons at hand. -/
def skipSemicolons (parser : Parser τ) : Parser τ :=
  if parser.current = .symbol ';' then skipSemicolons parser.advance else parser
termination_by parser.size
decreasing_by
  rename_i found
  exact size_advance_lt (by rw [found]; simp)

/-- Read the item that begins with the token at hand, unless the input has ended. -/
def itemHere? (parser : Parser τ) : Option ItemResult × Parser τ :=
  match parser.current with
  | .endOfInput => (none, parser)
  | .define =>
    let (result, rest) := parser.definition.map Item.function
    (some ⟨.definition, result⟩, rest)
  | .declare =>
    let (result, rest) := parser.declaration.map Item.declaration
    (some ⟨.declaration, result⟩, rest)
  | .name _ | .number _ | .symbol _ =>
    let (result, rest) := parser.bareExpression.map Item.function
    (some ⟨.expression, result⟩, rest)

/-- Read the next item, unless only semicolons are left. -/
def item? (parser : Parser τ) : Option ItemResult × Parser τ := parser.skipSemicolons.itemHere?

theorem parameters_size_le (read : Array String) (parser : Parser τ) :
    (parser.parameters read).2.size ≤ parser.advance.size := by
  fun_induction parameters read parser with
  | case1 => exact Nat.le_refl _
  | case2 read parser name found _ ih => exact Nat.le_trans ih (size_advance_le _)
  | case3 => exact size_advance_le _
  | case4 => exact Nat.le_refl _
  | case5 => exact Nat.le_refl _
  | case6 => exact Nat.le_refl _
  | case7 => exact Nat.le_refl _
  | case8 => exact Nat.le_refl _

theorem prototype_shortens (parser : Parser τ) : parser.prototype.Shortens parser := by
  unfold prototype
  split
  · next found =>
    have passed : parser.advance.size < parser.size := size_advance_lt (by rw [found]; simp)
    split
    · have bound := parameters_size_le #[] parser.advance
      have left := size_advance_le parser.advance
      refine Outcome.Shortens.map ?_ _
      unfold Outcome.Shortens
      split <;> omega
    · exact Nat.le_of_lt passed
  all_goals exact Nat.le_refl _

theorem definition_shortens {parser : Parser τ} (found : parser.current ≠ .endOfInput) :
    parser.definition.Shortens parser := by
  have passed : parser.advance.size < parser.size := size_advance_lt found
  refine Outcome.Shortens.andThen ?_ ?_
  · exact (prototype_shortens _).mono (Nat.le_of_lt passed)
  · exact fun _ after smaller =>
      ((expression_shortens after).mono (Nat.le_of_lt smaller)).map _

theorem declaration_shortens {parser : Parser τ} (found : parser.current ≠ .endOfInput) :
    parser.declaration.Shortens parser :=
  (prototype_shortens _).mono (Nat.le_of_lt (size_advance_lt found))

theorem bareExpression_shortens (parser : Parser τ) : parser.bareExpression.Shortens parser :=
  (expression_shortens (parser.record _)).map _

theorem size_skipSemicolons_le (parser : Parser τ) : parser.skipSemicolons.size ≤ parser.size := by
  fun_induction skipSemicolons parser with
  | case1 _ _ ih => exact Nat.le_trans ih (size_advance_le _)
  | case2 => exact Nat.le_refl _

/-- An item uses up tokens, counted from behind the semicolons before it. -/
theorem itemHere?_shortens {parser : Parser τ} {item : ItemResult} {rest : Parser τ}
    (read : parser.itemHere? = (some item, rest)) :
    parser.current ≠ .endOfInput ∧ Outcome.Shortens (item.result, rest) parser := by
  unfold itemHere? at read
  split at read
  · simp at read
  · next found =>
    have shortens := (@definition_shortens _ _ parser (by rw [found]; simp)).map Item.function
    simp only [Prod.mk.injEq, Option.some.injEq] at read
    obtain ⟨rfl, rfl⟩ := read
    exact ⟨by rw [found]; simp, shortens⟩
  · next found =>
    have shortens :=
      (@declaration_shortens _ _ parser (by rw [found]; simp)).map Item.declaration
    simp only [Prod.mk.injEq, Option.some.injEq] at read
    obtain ⟨rfl, rfl⟩ := read
    exact ⟨by rw [found]; simp, shortens⟩
  all_goals
    next found =>
    have shortens := (bareExpression_shortens parser).map Item.function
    simp only [Prod.mk.injEq, Option.some.injEq] at read
    obtain ⟨rfl, rfl⟩ := read
    exact ⟨by rw [found]; simp, shortens⟩

theorem item?_size_lt {parser rest : Parser τ} {kind : ItemKind} {item : Item}
    (read : parser.item? = (some ⟨kind, .ok item⟩, rest)) : rest.size < parser.size :=
  Nat.lt_of_lt_of_le (itemHere?_shortens read).2 (size_skipSemicolons_le parser)

/-- Passing the token behind an error leaves a parser smaller than the one before the item: either
the token is passed, or the input has ended since. -/
theorem item?_size_advance_lt {parser rest : Parser τ} {kind : ItemKind} {error : ParseError}
    (read : parser.item? = (some ⟨kind, .error error⟩, rest)) :
    rest.advance.size < parser.size := by
  obtain ⟨found, shortens⟩ := itemHere?_shortens read
  rw [Outcome.shortens_error] at shortens
  have skipped := size_skipSemicolons_le parser
  by_cases finished : rest.current = .endOfInput
  · have left := size_advance_le rest
    simp only [size, found, finished, if_true, if_false] at *
    omega
  · have passed := size_advance_lt finished
    omega

end Parser

end OpLang
