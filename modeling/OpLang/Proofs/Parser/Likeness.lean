import OpLang.Proofs.Parser.Streams
import OpLang.Proofs.Parser.Trees

/-! # Parsers over inputs that are alike

A parser goes by what its tokens say and, where operators meet, by which of two binds tighter. It
takes no notice of places, of entries for characters that it does not meet, or of how far apart two
precedences are. A `Likeness` says which tokens of one input stand for which tokens of another, each
under settings of its own. Parsers over alike inputs are twins, and they stay twins whatever they
read: they return the same, or they fail for the same reason at tokens that stand for each other.

The other input may have a semicolon where the first one ends. No rule of the language goes past
either of them, so what follows the semicolon has no part in what is read before it.
-/

namespace OpLang

/-- How two inputs are alike, each read by settings of its own. -/
structure Likeness where
  settings : Settings
  otherSettings : Settings
  /-- Which tokens stand for each other. -/
  pairs : LocatedToken → LocatedToken → Prop
  /-- What the other input has behind the token that stands for the end of the first. -/
  behind : Nat → LocatedToken
  /-- The characters that the inputs may have as tokens. -/
  symbols : Char → Prop
  same : ∀ token other, pairs token other → token.token ≠ .endOfInput → other.token = token.token
  ends : ∀ token other, pairs token other → token.token = .endOfInput →
    other.token = .endOfInput ∧ (∀ call, (behind call).token = .endOfInput) ∨
      other.token = .symbol ';' ∧ otherSettings.operators.precedence? ';' = none
  occurs : ∀ token other char, pairs token other → token.token = .symbol char → symbols char
  repeated : otherSettings.allowRepeatedParameters = settings.allowRepeatedParameters
  order : settings.operators.SameOrder symbols otherSettings.operators

namespace Likeness

variable {like : Likeness}

/-- An operator of both inputs with its precedences. -/
structure Entry (like : Likeness) (char : Char) (precedence other : Int32) : Prop where
  occurs : like.symbols char
  entry : like.settings.operators.precedence? char = some precedence
  otherEntry : like.otherSettings.operators.precedence? char = some other

/-- Two thresholds that the same operators reach. -/
def Thresholds (like : Likeness) (minimum other : Int32) : Prop :=
  ∀ char precedence otherPrecedence, like.Entry char precedence otherPrecedence →
    (minimum ≤ precedence ↔ other ≤ otherPrecedence)

variable {char char' : Char} {precedence other precedence' other' : Int32}

theorem Entry.positive (entry : like.Entry char precedence other) : 0 < precedence ∧ 0 < other :=
  ⟨(Operators.precedence?_eq_some_iff.mp entry.entry).2.2,
    (Operators.precedence?_eq_some_iff.mp entry.otherEntry).2.2⟩

/-- Both tables put two operators in the same order. -/
theorem Entry.lt_iff (first : like.Entry char precedence other)
    (second : like.Entry char' precedence' other') : precedence < precedence' ↔ other < other' := by
  have order := like.order.order char char' first.occurs second.occurs
    (Operators.effective_of_entry first.entry) (Operators.effective_of_entry second.entry)
  rw [Operators.strength_eq first.entry, Operators.strength_eq second.entry,
    Operators.strength_eq first.otherEntry, Operators.strength_eq second.otherEntry] at order
  rwa [Int32.lt_iff_toInt_lt, Int32.lt_iff_toInt_lt]

theorem thresholds_zero (like : Likeness) : like.Thresholds 0 0 := by
  intro char precedence other entry
  obtain ⟨positive, otherPositive⟩ := entry.positive
  exact iff_of_true (Int32.le_of_lt positive) (Int32.le_of_lt otherPositive)

/-- Past an operator that another one exceeds there are thresholds again; nothing overflows. -/
theorem thresholds_succ (entry : like.Entry char precedence other)
    (greater : like.Entry char' precedence' other') (less : precedence < precedence') :
    like.Thresholds (precedence + 1) (other + 1) := by
  intro found foundPrecedence foundOther foundEntry
  have order := entry.lt_iff foundEntry
  have lifted := Parser.toInt_succ less
  have otherLifted := Parser.toInt_succ ((entry.lt_iff greater).mp less)
  rw [Int32.lt_iff_toInt_lt, Int32.lt_iff_toInt_lt] at order
  rw [Int32.le_iff_toInt_le, Int32.le_iff_toInt_le, lifted, otherLifted]
  omega

end Likeness

/-- Faults that differ at most in the token that was found. -/
inductive ParseFault.Twins : ParseFault → ParseFault → Prop where
  | unexpected (wanted : Expectation) (found other : Token) :
    Twins (.unexpected wanted found) (.unexpected wanted other)
  | repeatedParameter (name : String) : Twins (.repeatedParameter name) (.repeatedParameter name)

/-- Errors for the same reason at tokens that stand for each other. -/
structure ParseError.Twins (like : Likeness) (error other : ParseError) : Prop where
  fault : error.fault.Twins other.fault
  offender : like.pairs error.offender other.offender

namespace Parser

variable {τ τ' : Type} [TokenSource τ] [TokenSource τ']

/-- Two parsers over alike inputs: the tokens ahead of them stand for each other, call by call,
until the first one comes to the end of input. -/
structure Twins (like : Likeness) (parser : Parser τ) (other : Parser τ') : Prop where
  settings : parser.settings = like.settings
  otherSettings : other.settings = like.otherSettings
  streams : ∃ tokens finish, parser.Holds tokens finish ∧
    (∀ call ≤ tokens.length, like.pairs (parser.stream call) (other.stream call)) ∧
    ∀ call, other.stream (tokens.length + 1 + call) = like.behind call

namespace Twins

variable {like : Likeness} {parser : Parser τ} {other : Parser τ'} {token : Token}

theorem here (twins : parser.Twins like other) : like.pairs parser.here other.here := by
  obtain ⟨tokens, _, _, pairs, _⟩ := twins.streams
  exact pairs 0 (Nat.zero_le _)

theorem settles (twins : parser.Twins like other) : parser.Settles := by
  obtain ⟨tokens, finish, holds, _⟩ := twins.streams
  exact ⟨tokens, finish, holds⟩

/-- As long as the first input has not ended, both have the same token at hand. -/
theorem current_eq (twins : parser.Twins like other) (found : parser.current ≠ .endOfInput) :
    other.current = parser.current :=
  like.same _ _ twins.here found

/-- Where the first input ends, the other one ends or has a semicolon that is no operator. -/
theorem current_of_finished (twins : parser.Twins like other)
    (finished : parser.current = .endOfInput) :
    other.current = .endOfInput ∧ (∀ call, (like.behind call).token = .endOfInput) ∨
      other.current = .symbol ';' ∧ like.otherSettings.operators.precedence? ';' = none :=
  like.ends _ _ twins.here finished

/-- A token that ends no item is at hand in both inputs or in neither. -/
theorem current_iff (twins : parser.Twins like other) (found : token ≠ .endOfInput)
    (inside : token ≠ .symbol ';') : other.current = token ↔ parser.current = token := by
  by_cases finished : parser.current = .endOfInput
  · rcases twins.current_of_finished finished with ⟨current, _⟩ | ⟨current, _⟩
    · simp [current, finished]
    · simp [current, finished, found.symm, inside.symm]
  · rw [twins.current_eq finished]

theorem current_ne (twins : parser.Twins like other) (found : token ≠ .endOfInput)
    (inside : token ≠ .symbol ';') (differs : parser.current ≠ token) : other.current ≠ token :=
  fun same => differs ((twins.current_iff found inside).mp same)

theorem repeated_eq (twins : parser.Twins like other) :
    other.settings.allowRepeatedParameters = parser.settings.allowRepeatedParameters := by
  rw [twins.settings, twins.otherSettings, like.repeated]

theorem record (twins : parser.Twins like other) (event event' : Event) :
    (parser.record event).Twins like (other.record event') := by
  obtain ⟨settings, otherSettings, tokens, finish, holds, pairs, behind⟩ := twins
  refine ⟨settings, otherSettings, tokens, finish, holds.record event, ?_, ?_⟩
  · simpa only [stream_record] using pairs
  · simpa only [stream_record] using behind

/-- Both pass the token at hand, as long as the first input has not ended. -/
theorem advance (twins : parser.Twins like other) (found : parser.current ≠ .endOfInput) :
    parser.advance.Twins like other.advance := by
  obtain ⟨settings, otherSettings, tokens, finish, holds, pairs, behind⟩ := twins
  cases tokens with
  | nil => exact absurd (holds.eq_nil_iff.mp rfl) found
  | cons token tokens =>
    refine ⟨settings, otherSettings, tokens, finish, holds.advance, fun call inside => ?_,
      fun call => ?_⟩
    · rw [stream_advance, stream_advance]
      exact pairs (call + 1) (Nat.succ_le_succ inside)
    · rw [stream_advance, ← behind, List.length_cons]
      congr 1
      omega

/-- A token of the first input is passed by both. -/
theorem pass (twins : parser.Twins like other) (current : parser.current = token)
    (found : token ≠ .endOfInput) :
    other.current = token ∧ parser.advance.Twins like other.advance :=
  have notFinished : parser.current ≠ .endOfInput := current ▸ found
  ⟨(twins.current_eq notFinished).trans current, twins.advance notFinished⟩

/-- Past the token that stands for the end of the first input the other one goes its own way. -/
theorem behind (twins : parser.Twins like other) (finished : parser.current = .endOfInput) :
    other.advance.stream = like.behind := by
  obtain ⟨_, _, tokens, finish, holds, _, behind⟩ := twins
  obtain rfl := holds.eq_nil_iff.mpr finished
  funext call
  rw [stream_advance, ← behind, List.length_nil]
  congr 1
  omega

/-! ### Operators -/

theorem operator (twins : parser.Twins like other) {char : Char} {precedence : Int32}
    (operator : parser.operator? = some (char, precedence)) :
    ∃ otherPrecedence, other.operator? = some (char, otherPrecedence) ∧
      like.Entry char precedence otherPrecedence := by
  obtain ⟨current, entry⟩ := operator?_eq_some_iff.mp operator
  rw [twins.settings] at entry
  have occurs := like.occurs _ _ char twins.here current
  have effective := (like.order.effective char occurs).mp (Operators.effective_of_entry entry)
  obtain ⟨otherPrecedence, otherEntry⟩ := Option.isSome_iff_exists.mp effective
  refine ⟨otherPrecedence, ?_, occurs, entry, otherEntry⟩
  have found : parser.current ≠ .endOfInput := current_ne_endOfInput_of_operator? operator
  exact operator?_eq_some_iff.mpr
    ⟨(twins.current_eq found).trans current, twins.otherSettings ▸ otherEntry⟩

/-- The other input has no operators beside those of the first one. -/
theorem operator_of_other (twins : parser.Twins like other) {char : Char} {precedence : Int32}
    (operator : other.operator? = some (char, precedence)) :
    ∃ firstPrecedence, parser.operator? = some (char, firstPrecedence) ∧
      like.Entry char firstPrecedence precedence := by
  obtain ⟨current, entry⟩ := operator?_eq_some_iff.mp operator
  rw [twins.otherSettings] at entry
  by_cases finished : parser.current = .endOfInput
  · rcases twins.current_of_finished finished with ⟨same, _⟩ | ⟨same, spared⟩
    · simp [same] at current
    · obtain rfl : ';' = char := Token.symbol.inj (same.symm.trans current)
      simp [spared] at entry
  · have same := (twins.current_eq finished).symm.trans current
    have occurs := like.occurs _ _ char twins.here same
    have effective := (like.order.effective char occurs).mpr (Operators.effective_of_entry entry)
    obtain ⟨firstPrecedence, firstEntry⟩ := Option.isSome_iff_exists.mp effective
    exact ⟨firstPrecedence, operator?_eq_some_iff.mpr ⟨same, twins.settings ▸ firstEntry⟩,
      occurs, firstEntry, entry⟩

/-- The token at hand binds tighter than an operator in both inputs or in neither. -/
theorem precedence_lt_iff (twins : parser.Twins like other) {char : Char}
    {precedence otherPrecedence : Int32} (entry : like.Entry char precedence otherPrecedence) :
    precedence < parser.precedence ↔ otherPrecedence < other.precedence := by
  cases found : parser.operator? with
  | some atHand =>
    obtain ⟨otherAtHand, otherFound, entry'⟩ := twins.operator found
    rw [precedence_eq_of_operator? found, precedence_eq_of_operator? otherFound]
    exact entry.lt_iff entry'
  | none =>
    have otherNone : other.operator? = none := by
      by_contra some
      obtain ⟨⟨char', _⟩, otherFound⟩ := Option.ne_none_iff_exists'.mp some
      obtain ⟨_, first, _⟩ := twins.operator_of_other otherFound
      simp [found] at first
    obtain ⟨positive, otherPositive⟩ := entry.positive
    rw [Parser.precedence, Parser.precedence, found, otherNone]
    exact iff_of_false (Int32.not_lt.mpr (Int32.le_of_lt (Int32.lt_trans (by decide) positive)))
      (Int32.not_lt.mpr (Int32.le_of_lt (Int32.lt_trans (by decide) otherPositive)))

/-- An operand that a tighter operator follows is climbed from thresholds on. -/
theorem thresholds (twins : parser.Twins like other) {char : Char}
    {precedence otherPrecedence : Int32} (entry : like.Entry char precedence otherPrecedence)
    (tighter : precedence < parser.precedence) :
    like.Thresholds (precedence + 1) (otherPrecedence + 1) := by
  cases found : parser.operator? with
  | some atHand =>
    obtain ⟨_, _, greater⟩ := twins.operator found
    rw [precedence_eq_of_operator? found] at tighter
    exact Likeness.thresholds_succ entry greater tighter
  | none =>
    rw [Parser.precedence, found] at tighter
    have positive := Int32.lt_trans entry.positive.1 tighter
    exact absurd positive (by decide)

end Twins

end Parser

end OpLang
