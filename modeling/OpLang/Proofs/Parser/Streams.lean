import Mathlib.Logic.Function.Iterate
import OpLang.Proofs.Parser.Ahead

/-! # Streams of tokens

A source of tokens can be asked for ever. Its stream is what it answers, call by call, and the
stream of a parser begins with the token at hand. A parser holds a list of tokens if its stream goes
through them and then stays at the end of input.
-/

namespace OpLang

namespace TokenSource

variable {τ : Type} [TokenSource τ]

/-- What a source answers to a call, counted from zero. -/
def stream (tokens : τ) (call : Nat) : LocatedToken :=
  (next ((fun tokens => (next tokens).2)^[call] tokens)).1

theorem stream_succ (tokens : τ) (call : Nat) :
    stream tokens (call + 1) = stream (next tokens).2 call := by
  rw [stream, stream, Function.iterate_succ_apply]

end TokenSource

namespace Parser

variable {τ : Type} [TokenSource τ] {parser rest : Parser τ} {tokens : List LocatedToken}
  {finish : Location}

/-- The token at hand, and what the source will answer. -/
def stream (parser : Parser τ) : Nat → LocatedToken
  | 0 => parser.here
  | call + 1 => TokenSource.stream parser.tokens call

@[simp] theorem stream_record (parser : Parser τ) (event : Event) :
    (parser.record event).stream = parser.stream := by
  funext call
  cases call <;> rfl

/-- Reading a token takes the first one off the stream. -/
@[simp] theorem stream_advance (parser : Parser τ) (call : Nat) :
    parser.advance.stream call = parser.stream (call + 1) := by
  cases call with
  | zero => rfl
  | succ call => exact (TokenSource.stream_succ parser.tokens call).symm

/-- The stream goes through the tokens of the list and then stays at the end of input. -/
structure Holds (tokens : List LocatedToken) (finish : Location) (parser : Parser τ) : Prop where
  stream : ∀ call, parser.stream call = (tokens[call]?).getD ⟨.endOfInput, finish⟩
  found : ∀ token ∈ tokens, token.token ≠ .endOfInput

namespace Holds

theorem here_nil (holds : parser.Holds [] finish) : parser.here = ⟨.endOfInput, finish⟩ :=
  holds.stream 0

theorem here_cons {token : LocatedToken} (holds : parser.Holds (token :: tokens) finish) :
    parser.here = token :=
  holds.stream 0

/-- The end of input is at hand only if no token of the list is left. -/
theorem eq_nil_iff (holds : parser.Holds tokens finish) :
    tokens = [] ↔ parser.current = .endOfInput := by
  cases tokens with
  | nil => exact ⟨fun _ => congrArg (·.token) holds.here_nil, fun _ => rfl⟩
  | cons token tokens =>
    have current : parser.current = token.token := congrArg (·.token) holds.here_cons
    simp [current, holds.found token (by simp)]

theorem record (holds : parser.Holds tokens finish) (event : Event) :
    (parser.record event).Holds tokens finish :=
  ⟨fun call => by rw [stream_record, holds.stream], holds.found⟩

/-- No log makes a difference to what is held. -/
theorem log (holds : parser.Holds tokens finish) (log : Array Event) :
    { parser with log }.Holds tokens finish :=
  ⟨fun call => by rw [← holds.stream]; cases call <;> rfl, holds.found⟩

theorem advance (holds : parser.Holds tokens finish) :
    parser.advance.Holds tokens.tail finish := by
  refine ⟨fun call => ?_, fun token member => holds.found token (List.mem_of_mem_tail member)⟩
  rw [stream_advance, holds.stream, List.getElem?_tail]

theorem passes {passed : List LocatedToken} (holds : parser.Holds tokens finish)
    (passes : Passes parser passed rest) :
    ∃ others, tokens = passed ++ others ∧ rest.Holds others finish := by
  induction passes generalizing tokens with
  | stay => exact ⟨tokens, rfl, holds⟩
  | advance found _ ih =>
    cases tokens with
    | nil => exact absurd (holds.eq_nil_iff.mp rfl) found
    | cons token tokens =>
      obtain ⟨others, rfl, held⟩ := ih holds.advance
      exact ⟨others, by rw [holds.here_cons, List.cons_append], held⟩
  | record event _ ih => exact ih (holds.record event)

end Holds

/-- Sooner or later the parser comes to the end of input, and there it stays. -/
def Settles (parser : Parser τ) : Prop := ∃ tokens finish, parser.Holds tokens finish

theorem Settles.advance (settles : parser.Settles) : parser.advance.Settles := by
  obtain ⟨_, _, holds⟩ := settles
  exact ⟨_, _, holds.advance⟩

theorem Settles.log (settles : parser.Settles) (log : Array Event) :
    { parser with log }.Settles := by
  obtain ⟨_, _, holds⟩ := settles
  exact ⟨_, _, holds.log log⟩

/-- Behind the end of input there is nothing but the end of input. -/
theorem Settles.current_advance (settles : parser.Settles)
    (finished : parser.current = .endOfInput) : parser.advance.current = .endOfInput := by
  obtain ⟨tokens, finish, holds⟩ := settles
  obtain rfl := holds.eq_nil_iff.mpr finished
  exact holds.advance.eq_nil_iff.mp rfl

end Parser

end OpLang
