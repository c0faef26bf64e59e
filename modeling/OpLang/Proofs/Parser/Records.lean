import OpLang.Proofs.Lexer.Drawing
import OpLang.Proofs.Parser.Runs
import OpLang.Proofs.Source.Supply

/-! # What parsers record

Apart from reading on, a parser only records what it is about to read and what it could not parse.
A failure to read is recorded when its source has one, so over a reader that never fails no such
record is ever made.
-/

namespace OpLang

/-- The event is no failure to read. -/
def Event.Ordinary (event : Event) : Prop := ∀ message, event ≠ .readFailed message

/-- The parser behind an outcome has a property, whether there is a value or an error. -/
def Outcome.Leaves {τ α : Type} (holds : Parser τ → Prop) (outcome : Outcome τ α) : Prop :=
  holds outcome.2

theorem Outcome.Leaves.andThen {τ α β : Type} {holds : Parser τ → Prop} {outcome : Outcome τ α}
    {next : α → Parser τ → Outcome τ β} (first : outcome.Leaves holds)
    (onwards : ∀ value parser, holds parser → (next value parser).Leaves holds) :
    (outcome.andThen next).Leaves holds := by
  rcases outcome with ⟨error | value, parser⟩
  · exact first
  · exact onwards value parser first

theorem Outcome.Leaves.map {τ α β : Type} {holds : Parser τ → Prop} {outcome : Outcome τ α}
    (first : outcome.Leaves holds) (change : α → β) : (outcome.map change).Leaves holds :=
  first.andThen fun _ _ held => held

namespace Parser

variable {τ α : Type} [TokenSource τ] {holds : Parser τ → Prop} {parser rest : Parser τ}

/-- A property of parsers that outlasts reading on and ordinary records. -/
structure Outlasts (holds : Parser τ → Prop) : Prop where
  advance : ∀ {parser}, holds parser → holds parser.advance
  record : ∀ {parser} {event : Event}, event.Ordinary → holds parser → holds (parser.record event)

namespace Outlasts

theorem fail (outlasts : Outlasts holds) (held : holds parser) (fault : ParseFault) :
    (parser.fail fault : Outcome τ α).Leaves holds :=
  outlasts.record (fun _ => by simp) held

theorem parsing (outlasts : Outlasts holds) (held : holds parser) (kind : ItemKind) :
    holds (parser.record (.parsing kind parser.location)) :=
  outlasts.record (fun _ => by simp) held

/-- Reading an expression reads on and records errors. -/
theorem runs {task : Task α} {outcome : Outcome τ α} (outlasts : Outlasts holds)
    (ran : Runs task parser outcome) (held : holds parser) : outcome.Leaves holds := by
  induction ran with
  | number | «variable» => exact outlasts.advance held
  | emptyCall => exact outlasts.advance (outlasts.advance (outlasts.advance held))
  | call _ _ _ _ inside | callError _ _ _ _ inside =>
    exact inside (outlasts.advance (outlasts.advance held))
  | group _ _ _ inside => exact outlasts.advance (inside (outlasts.advance held))
  | unclosedGroup _ _ _ inside => exact outlasts.fail (inside (outlasts.advance held)) _
  | groupError _ _ inside => exact inside (outlasts.advance held)
  | noPrimary => exact outlasts.fail held _
  | lastArgument _ _ first => exact outlasts.advance (first held)
  | moreArguments _ _ _ first others => exact others (outlasts.advance (first held))
  | unclosedCall _ _ _ first => exact outlasts.fail (first held) _
  | argumentError _ first | chainError _ first => exact first held
  | chain _ _ first links => exact links (first held)
  | stop => exact held
  | link _ _ _ _ _ operand links => exact links (operand (outlasts.advance held))
  | tighterLink _ _ _ _ _ _ operand inside links =>
    exact links (inside (operand (outlasts.advance held)))
  | tighterError _ _ _ _ _ operand inside => exact inside (operand (outlasts.advance held))
  | operandError _ _ _ operand => exact operand (outlasts.advance held)

theorem expression (outlasts : Outlasts holds) (held : holds parser) :
    parser.expression.Leaves holds :=
  outlasts.runs (Parser.runs .expression parser) held

theorem parameters (outlasts : Outlasts holds) (read : Array String) (held : holds parser) :
    (parser.parameters read).Leaves holds := by
  fun_induction Parser.parameters read parser with
  | case1 => exact outlasts.fail (outlasts.advance held) _
  | case2 _ _ _ _ _ ih => exact ih (outlasts.advance held)
  | case3 => exact outlasts.advance (outlasts.advance held)
  | case4 | case5 | case6 | case7 | case8 => exact outlasts.fail (outlasts.advance held) _

theorem prototype (outlasts : Outlasts holds) (held : holds parser) :
    parser.prototype.Leaves holds := by
  unfold Parser.prototype
  split
  · split
    · exact (outlasts.parameters #[] (outlasts.advance held)).map _
    · exact outlasts.fail (outlasts.advance held) _
  all_goals exact outlasts.fail held _

theorem definition (outlasts : Outlasts holds) (held : holds parser) :
    parser.definition.Leaves holds := by
  have begun := outlasts.advance (outlasts.parsing held .definition)
  exact (outlasts.prototype begun).andThen fun _ _ after => (outlasts.expression after).map _

theorem declaration (outlasts : Outlasts holds) (held : holds parser) :
    parser.declaration.Leaves holds :=
  outlasts.prototype (outlasts.advance (outlasts.parsing held .declaration))

theorem bareExpression (outlasts : Outlasts holds) (held : holds parser) :
    parser.bareExpression.Leaves holds :=
  (outlasts.expression (outlasts.parsing held .expression)).map _

theorem skipSemicolons (outlasts : Outlasts holds) (held : holds parser) :
    holds parser.skipSemicolons := by
  fun_induction Parser.skipSemicolons parser with
  | case1 _ _ ih => exact ih (outlasts.advance held)
  | case2 => exact held

theorem item? (outlasts : Outlasts holds) (held : holds parser) : holds parser.item?.2 := by
  have begun := outlasts.skipSemicolons held
  rw [Parser.item?]
  unfold itemHere?
  split
  · exact begun
  · exact (outlasts.definition begun).map Item.function
  · exact (outlasts.declaration begun).map Item.declaration
  all_goals exact (outlasts.bareExpression begun).map Item.function

end Outlasts

end Parser

/-! ### Readers that do not fail -/

/-- Reading a token from a reader that does not fail leaves such a reader. -/
theorem LineReader.Sound.lexer_next {lexer : Lexer LineReader} (sound : lexer.source.Sound) :
    lexer.next.2.source.Sound := by
  obtain ⟨passed, -, source⟩ := Lexer.draws_next lexer
  rw [source]
  generalize passed.length = questions
  induction questions with
  | zero => exact sound
  | succ questions ih =>
    rw [CharSource.after_succ]
    exact ih.next

/-- A parser over a reader that does not fail has recorded no failure to read. -/
structure Parser.Calm (parser : Parser (Lexer LineReader)) : Prop where
  source : parser.tokens.source.Sound
  log : ∀ event ∈ parser.log, event.Ordinary

theorem Parser.outlasts_calm : Outlasts Calm where
  advance {parser} calm := by
    have before : TokenSource.failure? parser.tokens = none := calm.source.unfailed
    have after : TokenSource.failure? (TokenSource.next parser.tokens).2 = none :=
      calm.source.lexer_next.unfailed
    refine ⟨calm.source.lexer_next, fun event member => ?_⟩
    simp only [advance, before, after] at member
    rcases Array.mem_push.mp member with earlier | rfl
    · exact calm.log event earlier
    · exact fun _ => by simp
  record {parser event} ordinary calm := by
    refine ⟨calm.source, fun other member => ?_⟩
    rcases Array.mem_push.mp member with earlier | rfl
    · exact calm.log other earlier
    · exact ordinary

end OpLang
