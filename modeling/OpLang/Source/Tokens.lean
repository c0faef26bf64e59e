import OpLang.Token

/-! # Sources of tokens

A parser reads located tokens from a source that it asks for one token at a time. The end of input
is a token too, and asking again after it is allowed. The source promises that tokens other than the
end of input use it up.
-/

namespace OpLang

/-- A source of located tokens that cannot go on forever. -/
class TokenSource (τ : Type) where
  /-- The next token and the source after it. -/
  next : τ → LocatedToken × τ
  /-- A bound on the tokens still to come before the end of input. -/
  remaining : τ → Nat
  /-- The reading failure that has ended the source, if one has. -/
  failure? : τ → Option String
  remaining_next_le : ∀ tokens : τ, remaining (next tokens).2 ≤ remaining tokens
  remaining_next_lt : ∀ {tokens : τ},
    (next tokens).1.token ≠ .endOfInput → remaining (next tokens).2 < remaining tokens

/-- Tokens that have been read before, and where the input ends. -/
structure TokenList where
  tokens : List LocatedToken
  finish : Location
deriving DecidableEq, Repr

/-- The tokens of a list from the first to the last, then the end of input over and over. -/
instance : TokenSource TokenList where
  next list :=
    match list.tokens with
    | [] => (⟨.endOfInput, list.finish⟩, list)
    | token :: tokens => (token, ⟨tokens, list.finish⟩)
  remaining list := list.tokens.length
  failure? _ := none
  remaining_next_le list := by
    rcases list with ⟨_ | _, _⟩ <;> simp
  remaining_next_lt {list} := by
    rcases list with ⟨_ | _, _⟩ <;> simp

namespace TokenSource

variable {τ : Type} [TokenSource τ]

/-- Read on from a source until the end of input, after the tokens read so far. The result holds the
tokens before the end of input and the source behind it. -/
def drain (read : Array LocatedToken) (tokens : τ) : Array LocatedToken × τ :=
  if (next tokens).1.token = .endOfInput then (read, (next tokens).2)
  else drain (read.push (next tokens).1) (next tokens).2
termination_by remaining tokens
decreasing_by exact remaining_next_lt ‹_›

end TokenSource

end OpLang
