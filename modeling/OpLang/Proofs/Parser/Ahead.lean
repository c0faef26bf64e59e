import OpLang.Parser.Item
import OpLang.Proofs.Operators
import OpLang.Proofs.Source.Ahead

/-! # The tokens ahead of a parser

A parser stands for the tokens that its source hands out and for the one it holds. What it consumes
is always a beginning of the tokens ahead of it: passing the token at hand takes the first of them
away, and entries in the log take none.
-/

namespace OpLang

namespace Parser

variable {τ α : Type}

/-- The token at hand with its place. -/
def here (parser : Parser τ) : LocatedToken := ⟨parser.current, parser.location⟩

theorem operator?_eq_some_iff {parser : Parser τ} {char : Char} {precedence : Int32} :
    parser.operator? = some (char, precedence) ↔ parser.current = .symbol char ∧
      parser.settings.operators.precedence? char = some precedence := by
  unfold operator?
  split
  · next found current =>
    simp only [current, Option.map_eq_some_iff, Prod.mk.injEq, Token.symbol.injEq]
    constructor
    · rintro ⟨_, entry, rfl, rfl⟩
      exact ⟨rfl, entry⟩
    · rintro ⟨rfl, entry⟩
      exact ⟨precedence, entry, rfl, rfl⟩
  · next other =>
    constructor
    · intro impossible
      contradiction
    · rintro ⟨current, _⟩
      exact absurd current (other char)

theorem precedence_eq_of_operator? {parser : Parser τ} {char : Char} {precedence : Int32}
    (operator : parser.operator? = some (char, precedence)) : parser.precedence = precedence := by
  simp only [Parser.precedence, operator, Option.map_some, Option.getD_some]

variable [TokenSource τ]

/-- The tokens that a parser has not used yet, the one at hand first. -/
def ahead (parser : Parser τ) : List LocatedToken :=
  if parser.current = .endOfInput then [] else parser.here :: TokenSource.ahead parser.tokens

/-- The tokens that a parser has not used yet, without their places. -/
def upcoming (parser : Parser τ) : List Token := parser.ahead.map (·.token)

@[simp] theorem ahead_record (parser : Parser τ) (event : Event) :
    (parser.record event).ahead = parser.ahead := rfl

/-- Whatever the token at hand was, the source decides what is ahead of the next one. -/
theorem ahead_advance (parser : Parser τ) :
    parser.advance.ahead = TokenSource.ahead parser.tokens := by
  by_cases finished : (TokenSource.next parser.tokens).1.token = .endOfInput
  · rw [TokenSource.ahead_of_finished finished]
    exact if_pos finished
  · rw [TokenSource.ahead_of_found finished]
    exact if_neg finished

theorem ahead_eq_nil_iff {parser : Parser τ} :
    parser.ahead = [] ↔ parser.current = .endOfInput := by
  unfold ahead
  split <;> simp_all

theorem ahead_of_found {parser : Parser τ} (found : parser.current ≠ .endOfInput) :
    parser.ahead = parser.here :: parser.advance.ahead := by
  rw [ahead, if_neg found, ahead_advance]

theorem upcoming_eq_nil_iff {parser : Parser τ} :
    parser.upcoming = [] ↔ parser.current = .endOfInput := by
  rw [upcoming, List.map_eq_nil_iff, ahead_eq_nil_iff]

theorem upcoming_of_found {parser : Parser τ} (found : parser.current ≠ .endOfInput) :
    parser.upcoming = parser.current :: parser.advance.upcoming := by
  rw [upcoming, ahead_of_found found]
  rfl

theorem upcoming_eq_cons_iff {parser : Parser τ} {token : Token} {rest : List Token} :
    parser.upcoming = token :: rest ↔
      token ≠ .endOfInput ∧ parser.current = token ∧ parser.advance.upcoming = rest := by
  by_cases finished : parser.current = .endOfInput
  · rw [upcoming_eq_nil_iff.mpr finished, finished]
    constructor
    · intro impossible
      contradiction
    · rintro ⟨found, same, _⟩
      exact absurd same.symm found
  · rw [upcoming_of_found finished, List.cons.injEq]
    constructor
    · rintro ⟨rfl, same⟩
      exact ⟨finished, rfl, same⟩
    · rintro ⟨_, same, rest⟩
      exact ⟨same, rest⟩

/-- A parser passes tokens, one after the other, until it is in another state. -/
inductive Passes : Parser τ → List LocatedToken → Parser τ → Prop where
  | stay (parser : Parser τ) : Passes parser [] parser
  | advance {parser rest : Parser τ} {passed : List LocatedToken}
    (found : parser.current ≠ .endOfInput) (onwards : Passes parser.advance passed rest) :
    Passes parser (parser.here :: passed) rest
  | record {parser rest : Parser τ} {passed : List LocatedToken} (event : Event)
    (onwards : Passes (parser.record event) passed rest) : Passes parser passed rest

namespace Passes

variable {parser middle rest : Parser τ} {passed others : List LocatedToken}

theorem append (first : Passes parser passed middle) (second : Passes middle others rest) :
    Passes parser (passed ++ others) rest := by
  induction first with
  | stay => exact second
  | advance found _ ih => exact .advance found (ih second)
  | record event _ ih => exact .record event (ih second)

/-- Passing one more token at the end. -/
theorem snoc (first : Passes parser passed rest) (found : rest.current ≠ .endOfInput) :
    Passes parser (passed ++ [rest.here]) rest.advance :=
  first.append (.advance found (.stay rest.advance))

theorem settings_eq (passes : Passes parser passed rest) : rest.settings = parser.settings := by
  induction passes with
  | stay => rfl
  | advance _ _ ih => exact ih
  | record _ _ ih => exact ih

/-- What is passed is exactly what is no longer ahead. -/
theorem ahead_eq (passes : Passes parser passed rest) : parser.ahead = passed ++ rest.ahead := by
  induction passes with
  | stay => rfl
  | advance found _ ih => rw [ahead_of_found found, ih, List.cons_append]
  | record event _ ih => rw [← ih, ahead_record]

theorem upcoming_eq (passes : Passes parser passed rest) :
    parser.upcoming = passed.map (·.token) ++ rest.upcoming := by
  rw [upcoming, passes.ahead_eq, List.map_append, upcoming]

/-- Tokens that are gone have been passed. -/
theorem tokens_eq {tokens : List Token} (passes : Passes parser passed rest)
    (read : parser.upcoming = tokens ++ rest.upcoming) : passed.map (·.token) = tokens :=
  List.append_cancel_right (passes.upcoming_eq.symm.trans read)

end Passes

end Parser

/-- The token that an error complains about. -/
def ParseFault.offender : ParseFault → Token
  | .unexpected _ found => found
  | .repeatedParameter name => .name name

/-- The token that an error complains about, at the place of the error. -/
def ParseError.offender (error : ParseError) : LocatedToken :=
  ⟨error.fault.offender, error.location⟩

namespace Outcome

variable {τ α β : Type} [TokenSource τ] {parser : Parser τ} {outcome : Outcome τ α}

/-- The parser after an error stands at the token that the error complains about. -/
def AtOffender : Outcome τ α → Prop
  | (.ok _, _) => True
  | (.error error, rest) => rest.here = error.offender

/-- An outcome is reached from a parser by passing tokens, and an error passes no more than those
before its offender. -/
structure ReachedFrom (parser : Parser τ) (outcome : Outcome τ α) : Prop where
  passes : ∃ passed, parser.Passes passed outcome.2
  atOffender : outcome.AtOffender

theorem ReachedFrom.after {middle : Parser τ} {passed : List LocatedToken}
    (reached : outcome.ReachedFrom middle) (first : parser.Passes passed middle) :
    outcome.ReachedFrom parser := by
  obtain ⟨further, second⟩ := reached.passes
  exact ⟨⟨_, first.append second⟩, reached.atOffender⟩

theorem ReachedFrom.andThen {next : α → Parser τ → Outcome τ β}
    (reached : outcome.ReachedFrom parser)
    (onwards : ∀ value rest, outcome = (.ok value, rest) → (next value rest).ReachedFrom rest) :
    (outcome.andThen next).ReachedFrom parser := by
  rcases outcome with ⟨error | value, rest⟩
  · exact ⟨reached.passes, reached.atOffender⟩
  · obtain ⟨passed, first⟩ := reached.passes
    exact (onwards value rest rfl).after first

theorem ReachedFrom.map (reached : outcome.ReachedFrom parser) (change : α → β) :
    (outcome.map change).ReachedFrom parser :=
  reached.andThen fun _ rest _ => ⟨⟨[], .stay rest⟩, trivial⟩

/-- Stopping at the token at hand passes nothing. -/
theorem reachedFrom_fail {fault : ParseFault} (offender : parser.current = fault.offender) :
    (parser.fail fault : Outcome τ α).ReachedFrom parser :=
  ⟨⟨[], .record _ (.stay _)⟩, congrArg (LocatedToken.mk · parser.location) offender⟩

theorem reachedFrom_refuse (wanted : Expectation) :
    (parser.refuse wanted : Outcome τ α).ReachedFrom parser :=
  reachedFrom_fail rfl

end Outcome

end OpLang
