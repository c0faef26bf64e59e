import OpLang.Parser.State

/-! # Parsing expressions

An expression is a chain of primaries joined by operators. `climb` extends the tree of a chain to
the right as long as operators bind at least as tightly as it was asked for; where the operator
behind a primary binds tighter than the one before it, the primary first becomes the left end of a
chain of its own.

The four functions call each other on parsers that have used up tokens. They are defined together
with that fact; `primary`, `arguments`, `expression` and `climb` are their values without it, and
`primary_eq` to `climb_eq` are the equations that the values satisfy.
-/

namespace OpLang.Parser

variable {τ : Type} [TokenSource τ]

/-- An outcome with the fact that it uses up tokens. -/
abbrev Shorter (before : Parser τ) (α : Type) :=
  { outcome : Outcome τ α // outcome.Shortens before }

mutual

/-- Read a number, a variable, a call or an expression in parentheses. -/
def shorterPrimary (parser : Parser τ) : Shorter parser Expr :=
  match found : parser.current with
  | .number value => ⟨(.ok (.number value), parser.advance), size_advance_lt (by simp [found])⟩
  | .name name =>
    have passed : parser.advance.size < parser.size := size_advance_lt (by simp [found])
    if opened : parser.advance.current = .symbol '(' then
      have entered : parser.advance.advance.size < parser.advance.size :=
        size_advance_lt (by rw [opened]; simp)
      if parser.advance.advance.current = .symbol ')' then
        have left := size_advance_le parser.advance.advance
        ⟨(.ok (.call name []), parser.advance.advance.advance), by
          rw [Outcome.shortens_ok]; omega⟩
      else
        match shorterArguments #[] parser.advance.advance with
        | ⟨(.ok arguments, rest), shorter⟩ =>
          ⟨(.ok (.call name arguments.toList), rest), by
            rw [Outcome.shortens_ok] at *; omega⟩
        | ⟨(.error error, rest), shorter⟩ =>
          ⟨(.error error, rest), by rw [Outcome.shortens_error] at *; omega⟩
    else ⟨(.ok (.variable name), parser.advance), passed⟩
  | .symbol char =>
    if char = '(' then
      have passed : parser.advance.size < parser.size := size_advance_lt (by simp [found])
      match shorterExpression parser.advance with
      | ⟨(.ok inner, rest), shorter⟩ =>
        if rest.current = .symbol ')' then
          ⟨(.ok inner, rest.advance), by
            have left := size_advance_le rest
            rw [Outcome.shortens_ok] at *; omega⟩
        else ⟨rest.refuse .closingParenthesis, by
          rw [Outcome.shortens_ok] at shorter; rw [Outcome.shortens_refuse]; omega⟩
      | ⟨(.error error, rest), shorter⟩ =>
        ⟨(.error error, rest), by rw [Outcome.shortens_error] at *; omega⟩
    else ⟨parser.refuse .expression, Nat.le_refl _⟩
  | .endOfInput | .define | .declare => ⟨parser.refuse .expression, Nat.le_refl _⟩
termination_by (parser.size, 0)

/-- Read arguments, after those already read, up to and with the closing parenthesis. -/
def shorterArguments (read : Array Expr) (parser : Parser τ) : Shorter parser (Array Expr) :=
  match shorterExpression parser with
  | ⟨(.ok argument, rest), shorter⟩ =>
    if rest.current = .symbol ')' then
      ⟨(.ok (read.push argument), rest.advance), by
        have left := size_advance_le rest
        rw [Outcome.shortens_ok] at *; omega⟩
    else if rest.current = .symbol ',' then
      have smaller : rest.advance.size < parser.size := by
        have left := size_advance_le rest
        rw [Outcome.shortens_ok] at shorter; omega
      ⟨(shorterArguments (read.push argument) rest.advance).1,
        (shorterArguments (read.push argument) rest.advance).2.mono (Nat.le_of_lt smaller)⟩
    else ⟨rest.refuse .argumentEnd, Nat.le_of_lt shorter⟩
  | ⟨(.error error, rest), shorter⟩ => ⟨(.error error, rest), shorter⟩
termination_by (parser.size, 2)

/-- Read a whole chain. -/
def shorterExpression (parser : Parser τ) : Shorter parser Expr :=
  match shorterPrimary parser with
  | ⟨(.ok left, rest), shorter⟩ =>
    have smaller : rest.size < parser.size := shorter
    ⟨(noLongerClimb 0 left rest).1, by
      have bound := (noLongerClimb 0 left rest).2
      unfold Outcome.Shortens
      split <;> omega⟩
  | ⟨(.error error, rest), shorter⟩ => ⟨(.error error, rest), shorter⟩
termination_by (parser.size, 1)

/-- Extend a tree by the operators at hand that bind at least as tightly as `minimum`. -/
def noLongerClimb (minimum : Int32) (left : Expr) (parser : Parser τ) :
    { outcome : Outcome τ Expr // outcome.2.size ≤ parser.size } :=
  match operator : parser.operator? with
  | some (char, precedence) =>
    if minimum ≤ precedence then
      have passed : parser.advance.size < parser.size :=
        size_advance_lt (current_ne_endOfInput_of_operator? operator)
      match shorterPrimary parser.advance with
      | ⟨(.ok right, rest), shorter⟩ =>
        have smaller : rest.size < parser.size := Nat.lt_trans shorter passed
        let operand : { outcome : Outcome τ Expr // outcome.2.size ≤ rest.size } :=
          if precedence < rest.precedence then noLongerClimb (precedence + 1) right rest
          else ⟨(.ok right, rest), Nat.le_refl _⟩
        match operand with
        | ⟨(.ok right, rest'), noLonger⟩ =>
          have smaller' : rest'.size < parser.size := Nat.lt_of_le_of_lt noLonger smaller
          ⟨(noLongerClimb minimum (.binary char left right) rest').1,
            Nat.le_trans (noLongerClimb minimum (.binary char left right) rest').2
              (Nat.le_of_lt smaller')⟩
        | ⟨(.error error, rest'), noLonger⟩ =>
          ⟨(.error error, rest'), Nat.le_trans noLonger (Nat.le_of_lt smaller)⟩
      | ⟨(.error error, rest), shorter⟩ =>
        ⟨(.error error, rest), Nat.le_trans shorter (Nat.le_of_lt passed)⟩
    else ⟨(.ok left, parser), Nat.le_refl _⟩
  | none => ⟨(.ok left, parser), Nat.le_refl _⟩
termination_by (parser.size, 0)

end

/-- Read a number, a variable, a call or an expression in parentheses. -/
def primary (parser : Parser τ) : Outcome τ Expr := (shorterPrimary parser).1

/-- Read arguments, after those already read, up to and with the closing parenthesis. -/
def arguments (read : Array Expr) (parser : Parser τ) : Outcome τ (Array Expr) :=
  (shorterArguments read parser).1

/-- Read an expression, up to the first token that cannot continue it. -/
def expression (parser : Parser τ) : Outcome τ Expr := (shorterExpression parser).1

/-- Extend a tree by the operators at hand that bind at least as tightly as `minimum`. -/
def climb (minimum : Int32) (left : Expr) (parser : Parser τ) : Outcome τ Expr :=
  (noLongerClimb minimum left parser).1

theorem primary_shortens (parser : Parser τ) : parser.primary.Shortens parser :=
  (shorterPrimary parser).2

theorem expression_shortens (parser : Parser τ) : parser.expression.Shortens parser :=
  (shorterExpression parser).2

theorem size_climb_le (minimum : Int32) (left : Expr) (parser : Parser τ) :
    (parser.climb minimum left).2.size ≤ parser.size :=
  (noLongerClimb minimum left parser).2

theorem primary_eq (parser : Parser τ) :
    parser.primary =
      match parser.current with
      | .number value => (.ok (.number value), parser.advance)
      | .name name =>
        if parser.advance.current = .symbol '(' then
          let entered := parser.advance.advance
          if entered.current = .symbol ')' then (.ok (.call name []), entered.advance)
          else
            match entered.arguments #[] with
            | (.ok arguments, rest) => (.ok (.call name arguments.toList), rest)
            | (.error error, rest) => (.error error, rest)
        else (.ok (.variable name), parser.advance)
      | .symbol char =>
        if char = '(' then
          match parser.advance.expression with
          | (.ok inner, rest) =>
            if rest.current = .symbol ')' then (.ok inner, rest.advance)
            else rest.refuse .closingParenthesis
          | (.error error, rest) => (.error error, rest)
        else parser.refuse .expression
      | .endOfInput | .define | .declare => parser.refuse .expression := by
  unfold primary arguments expression
  rw [shorterPrimary]
  split
  · next current => simp only [current]
  · next name current =>
    simp only [current]
    split
    · split
      · rfl
      · rcases shorterArguments #[] parser.advance.advance with ⟨⟨_ | arguments, rest⟩, shorter⟩ <;>
          rfl
    · rfl
  · next char current =>
    simp only [current]
    split
    · rcases shorterExpression parser.advance with ⟨⟨_ | inner, rest⟩, shorter⟩
      · rfl
      · dsimp only
        split <;> rfl
    · rfl
  all_goals
    next current => simp only [current]

theorem arguments_eq (read : Array Expr) (parser : Parser τ) :
    parser.arguments read =
      match parser.expression with
      | (.ok argument, rest) =>
        if rest.current = .symbol ')' then (.ok (read.push argument), rest.advance)
        else if rest.current = .symbol ',' then rest.advance.arguments (read.push argument)
        else rest.refuse .argumentEnd
      | (.error error, rest) => (.error error, rest) := by
  unfold arguments expression
  rw [shorterArguments]
  rcases shorterExpression parser with ⟨⟨_ | argument, rest⟩, shorter⟩
  · rfl
  · dsimp only
    split
    · rfl
    · split <;> rfl

theorem expression_eq (parser : Parser τ) :
    parser.expression =
      match parser.primary with
      | (.ok left, rest) => rest.climb 0 left
      | (.error error, rest) => (.error error, rest) := by
  unfold expression primary climb
  rw [shorterExpression]
  rcases shorterPrimary parser with ⟨⟨_ | left, rest⟩, shorter⟩ <;> rfl

theorem climb_eq (minimum : Int32) (left : Expr) (parser : Parser τ) :
    parser.climb minimum left =
      match parser.operator? with
      | some (char, precedence) =>
        if minimum ≤ precedence then
          match parser.advance.primary with
          | (.ok right, rest) =>
            match
              if precedence < rest.precedence then rest.climb (precedence + 1) right
              else (.ok right, rest) with
            | (.ok right, rest') => rest'.climb minimum (.binary char left right)
            | (.error error, rest') => (.error error, rest')
          | (.error error, rest) => (.error error, rest)
        else (.ok left, parser)
      | none => (.ok left, parser) := by
  unfold climb primary
  rw [noLongerClimb]
  split
  · next char precedence operator =>
    simp only [operator]
    split
    · rcases shorterPrimary parser.advance with ⟨⟨_ | right, rest⟩, shorter⟩
      · rfl
      · dsimp only
        by_cases tighter : precedence < rest.precedence
        · simp only [tighter, if_true]
          rcases noLongerClimb (precedence + 1) right rest with ⟨⟨_ | right, rest'⟩, noLonger⟩ <;>
            rfl
        · simp only [tighter, if_false]
    · rfl
  · next operator => simp only [operator]

end OpLang.Parser
