import OpLang.Log
import OpLang.Settings
import OpLang.Source.Tokens

/-! # The state of a parser

A parser holds one token that it has read but not yet used. Nothing is read before the first
`advance`; until then the token at hand is the end of input. Whatever happens is entered in a log
that no decision depends on.
-/

namespace OpLang

/-- A parser over a source of tokens. -/
structure Parser (τ : Type) where
  tokens : τ
  current : Token
  location : Location
  settings : Settings
  log : Array Event

/-- The outcome of a step of parsing: a value or an error, and the parser after it. -/
abbrev Outcome (τ α : Type) := Except ParseError α × Parser τ

namespace Parser

variable {τ α : Type}

/-- A parser that has read nothing. -/
def ofTokens (tokens : τ) (settings : Settings) : Parser τ :=
  ⟨tokens, .endOfInput, .first, settings, #[]⟩

/-- Enter an event in the log. -/
def record (parser : Parser τ) (event : Event) : Parser τ :=
  { parser with log := parser.log.push event }

/-- Stop at the token at hand, which stays where it is. -/
def fail (parser : Parser τ) (fault : ParseFault) : Outcome τ α :=
  let error : ParseError := ⟨fault, parser.location⟩
  (.error error, parser.record (.parseFailed error))

/-- Stop because the token at hand is not what was wanted. -/
def refuse (parser : Parser τ) (wanted : Expectation) : Outcome τ α :=
  parser.fail (.unexpected wanted parser.current)

/-- The operator at hand with its precedence, if the token at hand is one. -/
def operator? (parser : Parser τ) : Option (Char × Int32) :=
  match parser.current with
  | .symbol char => (parser.settings.operators.precedence? char).map (char, ·)
  | _ => none

/-- The precedence of the token at hand, or `-1` if it is not an operator. -/
def precedence (parser : Parser τ) : Int32 := (parser.operator?.map (·.2)).getD (-1)

/-- An operator is not the end of input. -/
theorem current_ne_endOfInput_of_operator? {parser : Parser τ} {entry : Char × Int32}
    (operator : parser.operator? = some entry) : parser.current ≠ .endOfInput := by
  intro finished
  simp [operator?, finished] at operator

variable [TokenSource τ]

/-- Read the next token. A failure of the source is entered in the log before the token. -/
def advance (parser : Parser τ) : Parser τ :=
  let (found, tokens) := TokenSource.next parser.tokens
  let log :=
    match TokenSource.failure? parser.tokens, TokenSource.failure? tokens with
    | none, some message => parser.log.push (.readFailed message)
    | _, _ => parser.log
  { parser with
    tokens
    current := found.token
    location := found.location
    log := log.push (.tokenRead found) }

/-- A bound on the work left. Twice the tokens still to come leave room for the one at hand, so that
a parser that meets the end of input is smaller than any that has not. -/
def size (parser : Parser τ) : Nat :=
  2 * TokenSource.remaining parser.tokens + if parser.current = .endOfInput then 0 else 1

@[simp] theorem current_advance (parser : Parser τ) :
    parser.advance.current = (TokenSource.next parser.tokens).1.token := rfl

@[simp] theorem tokens_advance (parser : Parser τ) :
    parser.advance.tokens = (TokenSource.next parser.tokens).2 := rfl

@[simp] theorem size_record (parser : Parser τ) (event : Event) :
    (parser.record event).size = parser.size := rfl

@[simp] theorem size_fail (parser : Parser τ) (fault : ParseFault) :
    (parser.fail fault : Outcome τ α).2.size = parser.size := rfl

@[simp] theorem size_refuse (parser : Parser τ) (wanted : Expectation) :
    (parser.refuse wanted : Outcome τ α).2.size = parser.size := rfl

theorem size_advance_le (parser : Parser τ) : parser.advance.size ≤ parser.size := by
  have shrinks := TokenSource.remaining_next_le parser.tokens
  simp only [size, current_advance, tokens_advance]
  by_cases finished : (TokenSource.next parser.tokens).1.token = .endOfInput
  · simp only [finished, if_true]
    omega
  · have shortens := TokenSource.remaining_next_lt finished
    simp only [finished, if_false]
    omega

theorem size_advance_lt {parser : Parser τ} (found : parser.current ≠ .endOfInput) :
    parser.advance.size < parser.size := by
  have shrinks := TokenSource.remaining_next_le parser.tokens
  simp only [size, current_advance, tokens_advance, found, if_false]
  by_cases finished : (TokenSource.next parser.tokens).1.token = .endOfInput
  · simp only [finished, if_true]
    omega
  · have shortens := TokenSource.remaining_next_lt finished
    simp only [finished, if_false]
    omega

end Parser

/-- An outcome uses up tokens: a value leaves a smaller parser, an error one that is not larger. -/
def Outcome.Shortens {τ α : Type} [TokenSource τ] (outcome : Outcome τ α) (before : Parser τ) :
    Prop :=
  match outcome.1 with
  | .ok _ => outcome.2.size < before.size
  | .error _ => outcome.2.size ≤ before.size

namespace Outcome

variable {τ α β : Type} [TokenSource τ] {before : Parser τ}

theorem Shortens.mono {outcome : Outcome τ α} {after : Parser τ}
    (shortens : outcome.Shortens after) (smaller : after.size ≤ before.size) :
    outcome.Shortens before := by
  unfold Shortens at *
  split <;> simp_all only <;> omega

@[simp] theorem shortens_ok {value : α} {after : Parser τ} :
    Shortens ((.ok value, after) : Outcome τ α) before ↔ after.size < before.size := Iff.rfl

@[simp] theorem shortens_error {error : ParseError} {after : Parser τ} :
    Shortens ((.error error, after) : Outcome τ α) before ↔ after.size ≤ before.size := Iff.rfl

@[simp] theorem shortens_fail {parser : Parser τ} {fault : ParseFault} :
    Shortens (parser.fail fault : Outcome τ α) before ↔ parser.size ≤ before.size := Iff.rfl

@[simp] theorem shortens_refuse {parser : Parser τ} {wanted : Expectation} :
    Shortens (parser.refuse wanted : Outcome τ α) before ↔ parser.size ≤ before.size := Iff.rfl

end Outcome

end OpLang
