import OpLang.Proofs.Lexer.Drawing
import OpLang.Proofs.Lexer.Places
import OpLang.Proofs.Parser.Ahead

/-! # How far a parser has read

A parser holds one token, and its lexer stands right behind the lexeme of that token. Passing tokens
keeps it so, and so does passing the end of input, which the lexer answers again without asking its
source.
-/

namespace OpLang

namespace Parser

variable {σ : Type} [CharSource σ] {source : σ} {finish : List Char} {segments : List Segment}
  {parser rest : Parser (Lexer σ)}

/-- The parser holds the token of the first segment, and its lexer has come from the beginning of
the source to the end of that segment. -/
structure Stands (source : σ) (finish : List Char) (segments : List Segment)
    (parser : Parser (Lexer σ)) : Prop where
  faces : Lexer.Faces finish segments parser.current parser.tokens
  draws : (Lexer.ofSource source).Draws parser.tokens

theorem Stands.withoutLog (stands : parser.Stands source finish segments) :
    Stands source finish segments { parser with log := #[] } :=
  ⟨stands.faces, stands.draws⟩

/-- Before anything else the first token is read. -/
theorem stands_start (settings : Settings)
    (cut : Segmented finish segments (CharSource.ahead source)) :
    (ofTokens (Lexer.ofSource source) settings).advance.Stands source finish segments := by
  constructor
  · change Lexer.Faces finish segments (Lexer.ofSource source).next.1.token
      (Lexer.ofSource source).next.2
    rw [Lexer.next_ofSource]
    apply Lexer.faces_next
    rw [Lexer.ahead_bump_ofSource]
    exact cut
  · exact Lexer.draws_next _

theorem Stands.advance (stands : parser.Stands source finish segments) :
    parser.advance.Stands source finish segments.tail where
  faces := stands.faces.next
  draws := stands.draws.trans (Lexer.draws_next _)

/-- Each token that is passed takes a segment with it. -/
theorem Stands.passes {passed : List LocatedToken} (passes : Passes parser passed rest)
    (stands : parser.Stands source finish segments) :
    ∃ front others, segments = front ++ others ∧ front.length = passed.length ∧
      rest.Stands source finish others := by
  induction passes generalizing segments with
  | stay => exact ⟨[], segments, rfl, rfl, stands⟩
  | advance found _ ih =>
    cases segments with
    | nil => exact absurd (stands.faces.eq_nil_iff.mp rfl) found
    | cons segment segments =>
      obtain ⟨front, others, rfl, length, onwards⟩ := ih stands.advance
      exact ⟨segment :: front, others, rfl, congrArg (· + 1) length, onwards⟩
  | record event _ ih => exact ih ⟨stands.faces, stands.draws⟩

end Parser

end OpLang
