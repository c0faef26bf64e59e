import OpLang.Number.Literal
import OpLang.Source.Basic
import OpLang.Source.Tokens
import OpLang.Text.Blank

/-! # Cutting characters into tokens

The lexer looks one character ahead and no further: when it has answered a token, it has asked its
source for that token's characters and for the one behind them. It never asks a source that has
ended. A fresh lexer looks at a blank, so nothing is read before the first token is wanted.

Blanks and comments separate tokens. A word is a letter followed by letters and digits, a literal a
run of digits and points, a comment runs from `#` to the end of its line, and every other character
is a token by itself.

The counters of a lexer have no bound. Those of 32 bits hold the same as long as the text has places
that fit into them, which a text with fewer than 2^32 - 1 characters has (`Lexer.CountersFit`,
`PlacesFit.of_length`); beyond that they wrap around (`Lexer.counters_bump`).
-/

namespace OpLang

/-- A lexer: the character it looks at, where that character stands, and where the token read last
began. The column is zero before anything has been read. -/
structure Lexer (σ : Type) where
  source : σ
  lookahead : Option Char
  line : Nat
  column : Nat
  start : Location
deriving Repr

namespace Lexer

variable {σ : Type}

/-- A lexer that has read nothing. -/
def ofSource (source : σ) : Lexer σ := ⟨source, some ' ', 1, 0, .first⟩

/-- Where the character looked at stands. -/
def location (lexer : Lexer σ) : Location := ⟨lexer.line, max lexer.column 1⟩

/-- Take the character looked at for the start of a token. -/
def mark (lexer : Lexer σ) : Lexer σ := { lexer with start := lexer.location }

variable [CharSource σ]

/-- A bound on the characters still to be passed. -/
def remaining (lexer : Lexer σ) : Nat :=
  if lexer.lookahead.isSome then CharSource.remaining lexer.source + 1 else 0

/-- Pass the character looked at. The end of input takes a column like any character. -/
def bump (lexer : Lexer σ) : Lexer σ :=
  let (char?, source) := CharSource.next lexer.source
  if lexer.lookahead = some '\n' then
    { lexer with source, lookahead := char?, line := lexer.line + 1, column := 1 }
  else { lexer with source, lookahead := char?, column := lexer.column + 1 }

@[simp] theorem remaining_mark (lexer : Lexer σ) : lexer.mark.remaining = lexer.remaining := rfl

@[simp] theorem lookahead_bump (lexer : Lexer σ) :
    lexer.bump.lookahead = (CharSource.next lexer.source).1 := by
  unfold bump; dsimp only; split <;> rfl

@[simp] theorem source_bump (lexer : Lexer σ) :
    lexer.bump.source = (CharSource.next lexer.source).2 := by
  unfold bump; dsimp only; split <;> rfl

theorem remaining_bump_lt {lexer : Lexer σ} {char : Char}
    (looks : lexer.lookahead = some char) : lexer.bump.remaining < lexer.remaining := by
  unfold remaining
  rw [lookahead_bump, source_bump, looks]
  cases answer : (CharSource.next lexer.source).1 with
  | none => simp
  | some found =>
    have shrinks := CharSource.remaining_next_lt answer
    simp only [Option.isSome_some, if_true]
    omega

/-- Pass characters as long as they satisfy a test. -/
def skipWhile (test : Char → Bool) (lexer : Lexer σ) : Lexer σ :=
  match _ : lexer.lookahead with
  | some char => if test char then skipWhile test lexer.bump else lexer
  | none => lexer
termination_by lexer.remaining
decreasing_by exact remaining_bump_lt ‹_›

/-- Pass characters as long as they satisfy a test, and gather them behind those gathered before. -/
def takeWhile (test : Char → Bool) (taken : Array Char) (lexer : Lexer σ) :
    Array Char × Lexer σ :=
  match _ : lexer.lookahead with
  | some char =>
    if test char then takeWhile test (taken.push char) lexer.bump else (taken, lexer)
  | none => (taken, lexer)
termination_by lexer.remaining
decreasing_by exact remaining_bump_lt ‹_›

theorem remaining_skipWhile_le (test : Char → Bool) (lexer : Lexer σ) :
    (lexer.skipWhile test).remaining ≤ lexer.remaining := by
  fun_induction skipWhile test lexer with
  | case1 lexer char looks _ ih => exact Nat.le_trans ih (Nat.le_of_lt (remaining_bump_lt looks))
  | case2 => exact Nat.le_refl _
  | case3 => exact Nat.le_refl _

theorem remaining_skipWhile_lt {test : Char → Bool} {lexer : Lexer σ} {char : Char}
    (looks : lexer.lookahead = some char) (passes : test char = true) :
    (lexer.skipWhile test).remaining < lexer.remaining := by
  rw [skipWhile]
  split
  · next found same =>
    obtain rfl : char = found := by simpa [looks] using same
    rw [if_pos passes]
    exact Nat.lt_of_le_of_lt (remaining_skipWhile_le _ _) (remaining_bump_lt looks)
  · next none => simp [looks] at none

theorem remaining_takeWhile_le (test : Char → Bool) (taken : Array Char) (lexer : Lexer σ) :
    (lexer.takeWhile test taken).2.remaining ≤ lexer.remaining := by
  fun_induction takeWhile test taken lexer with
  | case1 _ lexer char looks _ ih => exact Nat.le_trans ih (Nat.le_of_lt (remaining_bump_lt looks))
  | case2 => exact Nat.le_refl _
  | case3 => exact Nat.le_refl _

theorem remaining_takeWhile_lt {test : Char → Bool} {taken : Array Char} {lexer : Lexer σ}
    {char : Char} (looks : lexer.lookahead = some char) (passes : test char = true) :
    (lexer.takeWhile test taken).2.remaining < lexer.remaining := by
  rw [takeWhile]
  split
  · next found same =>
    obtain rfl : char = found := by simpa [looks] using same
    rw [if_pos passes]
    exact Nat.lt_of_le_of_lt (remaining_takeWhile_le _ _ _) (remaining_bump_lt looks)
  · next none => simp [looks] at none

/-- The characters that do not end a comment. -/
def inComment (char : Char) : Bool := char != '\n' && char != '\r'

/-- Read the token that starts at the character looked at, which is neither blank nor the start of
a comment. -/
def token (char : Char) (lexer : Lexer σ) : Token × Lexer σ :=
  if char.isAlpha then
    let (word, lexer) := lexer.takeWhile Char.isAlphanum #[]
    (.ofWord (String.ofList word.toList), lexer)
  else if Literal.isPart char then
    let (literal, lexer) := lexer.takeWhile Literal.isPart #[]
    (.number (Literal.value literal.toList), lexer)
  else (.symbol char, lexer.bump)

/-- Read a token, after any blanks and comments. -/
def next (lexer : Lexer σ) : LocatedToken × Lexer σ :=
  let lexer := (lexer.skipWhile isBlank).mark
  match _ : lexer.lookahead with
  | none => (⟨.endOfInput, lexer.start⟩, lexer)
  | some char =>
    if _ : char = '#' then next (lexer.skipWhile inComment)
    else
      let (token, rest) := lexer.token char
      (⟨token, lexer.start⟩, rest)
termination_by lexer.remaining
decreasing_by
  subst char
  exact Nat.lt_of_lt_of_le (remaining_skipWhile_lt ‹_› rfl) (remaining_skipWhile_le isBlank _)

theorem remaining_token_lt {lexer : Lexer σ} {char : Char}
    (looks : lexer.lookahead = some char) : (lexer.token char).2.remaining < lexer.remaining := by
  unfold token
  split
  · next alpha => exact remaining_takeWhile_lt looks (by simp [Char.isAlphanum, alpha])
  · split
    · next part => exact remaining_takeWhile_lt looks part
    · exact remaining_bump_lt looks

theorem token_ne_endOfInput (lexer : Lexer σ) (char : Char) :
    (lexer.token char).1 ≠ .endOfInput := by
  unfold token
  split
  · simp only [Token.ofWord, ne_eq]
    split
    · simp
    · split <;> simp
  · split <;> simp

/-- The end of input is answered only when no character is left to look at. -/
theorem remaining_next (lexer : Lexer σ) :
    lexer.next.2.remaining ≤ lexer.remaining ∧
      (lexer.next.1.token ≠ .endOfInput → lexer.next.2.remaining < lexer.remaining) := by
  fun_induction next lexer with
  | case1 lexer marked _ =>
    exact ⟨remaining_skipWhile_le isBlank lexer, fun found => absurd rfl found⟩
  | case2 lexer marked looks ih =>
    have skipped : marked.remaining ≤ lexer.remaining := remaining_skipWhile_le isBlank lexer
    have comment := remaining_skipWhile_le inComment marked
    exact ⟨by omega, fun found => by have := ih.2 found; omega⟩
  | case3 lexer marked char looks _ token rest read =>
    have skipped : marked.remaining ≤ lexer.remaining := remaining_skipWhile_le isBlank lexer
    have shorter := remaining_token_lt looks
    rw [read] at shorter
    dsimp only at shorter ⊢
    exact ⟨by omega, fun _ => by omega⟩

instance : TokenSource (Lexer σ) where
  next := next
  remaining := remaining
  failure? lexer := CharSource.failure? lexer.source
  remaining_next_le lexer := (remaining_next lexer).1
  remaining_next_lt {lexer} := (remaining_next lexer).2

/-- A token, unless the input has ended. -/
def next? (lexer : Lexer σ) : Option Token × Lexer σ :=
  let (found, rest) := lexer.next
  (if found.token = .endOfInput then none else some found.token, rest)

end Lexer

/-- The tokens of a text with their places. -/
def locatedTokens (text : String) : List LocatedToken :=
  (TokenSource.drain #[] (Lexer.ofSource text.toList)).1.toList

/-- The tokens of a text. -/
def lex (text : String) : List Token := (locatedTokens text).map (·.token)

end OpLang
