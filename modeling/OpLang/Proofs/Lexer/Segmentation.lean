import Mathlib.Data.List.TakeWhile
import OpLang.Proofs.Lexer.Lexemes

/-! # Cutting a text into gaps and lexemes

A text is cut into lexemes and the gaps before, between and behind them. A gap is made of blanks and
comments, and a lexeme goes on as long as it can. There is exactly one such cut of every text, and
the tokens of the text are those of its lexemes.
-/

namespace OpLang

/-- Blanks and comments in front of other characters. A comment runs up to the end of its line or of
the text. -/
inductive Gap : List Char → List Char → Prop where
  | nil (others : List Char) : Gap [] others
  | blank {char : Char} {gap others : List Char} (blank : isBlank char = true)
    (onwards : Gap gap others) : Gap (char :: gap) others
  | comment {text gap others : List Char} (inside : ∀ char ∈ text, Lexer.inComment char = true)
    (ends : ∀ char ∈ (gap ++ others).head?, Lexer.inComment char = false)
    (onwards : Gap gap others) : Gap ('#' :: (text ++ gap)) others

/-- A gap and the lexeme behind it with its token. -/
@[ext]
structure Segment where
  gap : List Char
  lexeme : List Char
  token : Token
deriving DecidableEq, Repr

/-- A sequence of gaps and lexemes that begins and ends with a gap. -/
structure Segmentation where
  segments : List Segment
  finish : List Char
deriving DecidableEq, Repr

/-- The characters of gaps and lexemes in their order. -/
def Segmentation.chars (cut : Segmentation) : List Char :=
  cut.segments.flatMap (fun segment => segment.gap ++ segment.lexeme) ++ cut.finish

/-- The tokens of the lexemes in their order. -/
def Segmentation.tokens (cut : Segmentation) : List Token := cut.segments.map (·.token)

/-- Segments and a last gap cut some characters: gaps are gaps, lexemes spell their tokens, and no
lexeme can be made longer by the character behind it. -/
inductive Segmented (finish : List Char) : List Segment → List Char → Prop where
  | nil (gap : Gap finish []) : Segmented finish [] finish
  | cons {segment : Segment} {segments : List Segment} {others : List Char}
    (gap : Gap segment.gap (segment.lexeme ++ others))
    (lexeme : Lexeme segment.token segment.lexeme)
    (maximal : ∀ char ∈ others.head?, segment.token.continues char = false)
    (behind : Segmented finish segments others) :
    Segmented finish (segment :: segments) (segment.gap ++ (segment.lexeme ++ others))

/-- The segmentation is a way to cut these characters. -/
def Segmentation.Cuts (cut : Segmentation) (chars : List Char) : Prop :=
  Segmented cut.finish cut.segments chars

variable {chars others gap finish : List Char} {segments : List Segment}

theorem Segmented.chars_eq (cut : Segmented finish segments chars) :
    segments.flatMap (fun segment => segment.gap ++ segment.lexeme) ++ finish = chars := by
  induction cut with
  | nil => rfl
  | cons _ _ _ _ ih => rw [List.flatMap_cons, List.append_assoc, List.append_assoc, ih]

theorem Segmented.lexeme (cut : Segmented finish segments chars) :
    ∀ segment ∈ segments, Lexeme segment.token segment.lexeme := by
  induction cut with
  | nil => simp
  | cons _ lexeme _ _ ih => exact List.forall_mem_cons.mpr ⟨lexeme, ih⟩

/-! ### Only one cut -/

/-- Characters that neither begin with a blank nor with a comment. -/
def Solid (chars : List Char) : Prop :=
  ∀ char ∈ chars.head?, isBlank char = false ∧ char ≠ '#'

theorem solid_nil : Solid [] := by
  intro char head
  contradiction

theorem Lexeme.solid {token : Token} (lexeme : Lexeme token chars) : Solid (chars ++ others) := by
  obtain ⟨first, behind, rfl, notBlank, notComment⟩ := lexeme.eq_cons
  intro char head
  obtain rfl : first = char := by simpa using head
  exact ⟨notBlank, notComment⟩

/-- A gap in front of something solid takes all the blanks and comments. -/
theorem Gap.unique {gap' others' : List Char} (first : Gap gap others) (second : Gap gap' others')
    (solid : Solid others) (solid' : Solid others') (same : gap ++ others = gap' ++ others') :
    gap = gap' ∧ others = others' := by
  induction first generalizing gap' with
  | nil others =>
    cases second with
    | nil => exact ⟨rfl, same⟩
    | blank blank _ =>
      subst same
      simp [(solid _ rfl).1] at blank
    | comment =>
      subst same
      exact absurd rfl (solid _ rfl).2
  | @blank char gap others blank _ ih =>
    cases second with
    | nil =>
      subst same
      simp [(solid' _ rfl).1] at blank
    | blank _ onwards' =>
      obtain ⟨rfl, behind⟩ := List.cons.inj same
      obtain ⟨rfl, rfl⟩ := ih onwards' solid behind
      exact ⟨rfl, rfl⟩
    | comment =>
      obtain ⟨rfl, _⟩ := List.cons.inj same
      exact absurd blank (by decide)
  | @comment text gap others inside ends _ ih =>
    cases second with
    | nil =>
      subst same
      exact absurd rfl (solid' _ rfl).2
    | blank blank _ =>
      obtain ⟨rfl, _⟩ := List.cons.inj same
      exact absurd blank (by decide)
    | @comment text' gap' _ inside' ends' onwards' =>
      rw [List.cons_append, List.cons_append, List.cons.injEq] at same
      have behind : text ++ (gap ++ others) = text' ++ (gap' ++ others') := by
        rw [← List.append_assoc, ← List.append_assoc, same.2]
      obtain ⟨taken, left⟩ := part_of_test inside ends
      obtain ⟨taken', left'⟩ := part_of_test inside' ends'
      rw [behind] at taken left
      obtain rfl := taken.symm.trans taken'
      obtain ⟨rfl, rfl⟩ := ih onwards' solid (left.symm.trans left')
      exact ⟨rfl, rfl⟩

/-- Characters begin with one lexeme only, if it is to be as long as it can be. -/
theorem Lexeme.unique {token token' : Token} {chars' others' : List Char}
    (first : Lexeme token chars) (second : Lexeme token' chars')
    (maximal : ∀ char ∈ others.head?, token.continues char = false)
    (maximal' : ∀ char ∈ others'.head?, token'.continues char = false)
    (same : chars ++ others = chars' ++ others') :
    token = token' ∧ chars = chars' ∧ others = others' := by
  -- A lexer that looks at these characters reads both lexemes, and it has only one answer.
  let lexer := (Lexer.ofSource (chars ++ others)).bump
  have ahead : lexer.ahead = chars ++ others := by
    have fresh := Lexer.ahead_ofSource (chars ++ others)
    rw [Lexer.ahead_of_some rfl, CharSource.ahead_list] at fresh
    exact (List.cons.inj fresh).2
  obtain ⟨token_eq, behind⟩ := Lexer.next_of_lexeme first maximal ahead
  obtain ⟨token_eq', behind'⟩ := Lexer.next_of_lexeme second maximal' (ahead.trans same)
  obtain rfl := behind.symm.trans behind'
  exact ⟨token_eq.symm.trans token_eq', List.append_cancel_right same, rfl⟩

theorem Segmented.unique {finish' : List Char} {segments' : List Segment}
    (first : Segmented finish segments chars) (second : Segmented finish' segments' chars) :
    segments = segments' ∧ finish = finish' := by
  induction first generalizing segments' with
  | nil gap =>
    generalize whole : finish = chars at second
    cases second with
    | nil => exact ⟨rfl, rfl⟩
    | cons gap' lexeme' =>
      obtain ⟨_, rest⟩ := gap.unique gap' solid_nil lexeme'.solid (by rw [List.append_nil, whole])
      exact absurd rest.symm (List.append_ne_nil_of_left_ne_nil lexeme'.ne_nil _)
  | @cons segment segments others gap lexeme maximal _ ih =>
    generalize whole : segment.gap ++ (segment.lexeme ++ others) = chars at second
    cases second with
    | nil gap' =>
      obtain ⟨_, rest⟩ := gap.unique gap' lexeme.solid solid_nil (by rw [List.append_nil, whole])
      exact absurd rest (List.append_ne_nil_of_left_ne_nil lexeme.ne_nil _)
    | @cons segment' segments' others' gap' lexeme' maximal' behind' =>
      obtain ⟨gap_eq, rest⟩ := gap.unique gap' lexeme.solid lexeme'.solid whole
      obtain ⟨token_eq, lexeme_eq, rfl⟩ := lexeme.unique lexeme' maximal maximal' rest
      obtain ⟨rfl, finish_eq⟩ := ih behind'
      exact ⟨by rw [Segment.ext gap_eq lexeme_eq token_eq], finish_eq⟩

/-! ### A cut of every text -/

theorem Gap.append {front : List Char} (first : Gap front (gap ++ others))
    (second : Gap gap others) : Gap (front ++ gap) others := by
  generalize whole : gap ++ others = behind at first
  induction first with
  | nil => exact second
  | blank blank _ ih => exact .blank blank (ih whole)
  | @comment text front behind inside ends _ ih =>
    rw [List.cons_append, List.append_assoc]
    refine .comment inside ?_ (ih whole)
    rw [List.append_assoc, whole]
    exact ends

/-- Segments with some characters more in the first gap. -/
def widen (front : List Char) : List Segment → List Segment
  | [] => []
  | segment :: segments => { segment with gap := front ++ segment.gap } :: segments

@[simp] theorem map_token_widen (front : List Char) (segments : List Segment) :
    (widen front segments).map (·.token) = segments.map (·.token) := by
  cases segments <;> rfl

/-- A gap in front of a text that is cut goes into the first gap. -/
theorem Segmented.prepend {front : List Char} (first : Gap front chars)
    (cut : Segmented finish segments chars) :
    ∃ finish', Segmented finish' (widen front segments) (front ++ chars) := by
  cases cut with
  | nil gap =>
    refine ⟨front ++ chars, .nil (Gap.append ?_ gap)⟩
    rw [List.append_nil]
    exact first
  | @cons segment segments others gap lexeme maximal behind =>
    refine ⟨finish, ?_⟩
    rw [← List.append_assoc]
    exact .cons (Gap.append first gap) lexeme maximal behind

/-- What is neither blank nor a comment begins with a lexeme that ends where it has to. -/
theorem exists_lexeme {first : Char} (notBlank : isBlank first = false) (notComment : first ≠ '#')
    (behind : List Char) :
    ∃ token chars others, first :: behind = chars ++ others ∧ Lexeme token chars ∧
      ∀ char ∈ others.head?, token.continues char = false := by
  by_cases alpha : first.isAlpha = true
  · refine ⟨_, first :: behind.takeWhile Char.isAlphanum, behind.dropWhile Char.isAlphanum, ?_,
      .word alpha fun _ => List.mem_takeWhile_imp, ?_⟩
    · rw [List.cons_append, List.takeWhile_append_dropWhile]
    · simpa only [Token.continues_ofWord] using head_dropWhile_fails
  · by_cases part : Literal.isPart first = true
    · refine ⟨_, (first :: behind).takeWhile Literal.isPart,
        (first :: behind).dropWhile Literal.isPart, List.takeWhile_append_dropWhile.symm,
        .literal ?_ fun _ => List.mem_takeWhile_imp, head_dropWhile_fails⟩
      rw [List.takeWhile_cons_of_pos part]
      exact List.cons_ne_nil _ _
    · have sign : IsSign first := ⟨by simpa using alpha, by simpa using part, notBlank, notComment⟩
      exact ⟨.symbol first, [first], behind, rfl, .sign sign, fun _ _ => rfl⟩

theorem exists_segmented (chars : List Char) :
    ∃ segments finish, Segmented finish segments chars := by
  match chars with
  | [] => exact ⟨[], [], .nil (.nil [])⟩
  | first :: behind =>
    by_cases blank : isBlank first = true
    · obtain ⟨_, _, cut⟩ := exists_segmented behind
      exact ⟨_, cut.prepend (.blank blank (.nil behind))⟩
    by_cases comment : first = '#'
    · subst comment
      obtain ⟨_, _, cut⟩ := exists_segmented (behind.dropWhile Lexer.inComment)
      have line : Gap ('#' :: (behind.takeWhile Lexer.inComment ++ []))
          (behind.dropWhile Lexer.inComment) :=
        .comment (fun _ => List.mem_takeWhile_imp) head_dropWhile_fails (.nil _)
      have whole := cut.prepend line
      rw [List.append_nil, List.cons_append, List.takeWhile_append_dropWhile] at whole
      exact ⟨_, whole⟩
    obtain ⟨token, lexeme, others, whole, spells, maximal⟩ :=
      exists_lexeme (by simpa using blank) comment behind
    have shorter : others.length < (first :: behind).length := by
      rw [whole, List.length_append]
      have filled := List.length_pos_iff.mpr spells.ne_nil
      omega
    obtain ⟨segments, finish, cut⟩ := exists_segmented others
    rw [whole]
    exact ⟨⟨[], lexeme, token⟩ :: segments, finish, .cons (.nil _) spells maximal cut⟩
termination_by chars.length
decreasing_by
  · exact Nat.lt_succ_self _
  · exact Nat.lt_succ_of_le (List.dropWhile_suffix Lexer.inComment).length_le
  · exact shorter

/-! ### Reading a cut -/

namespace Lexer

variable {σ : Type} [CharSource σ] {lexer : Lexer σ}

/-- A blank that a lexer looks at has no part in the next token. -/
theorem next_of_blank_ahead {char : Char} (looks : lexer.lookahead = some char)
    (blank : isBlank char = true) : lexer.next = lexer.bump.next := by
  have skipped : lexer.skipWhile isBlank = lexer.bump.skipWhile isBlank := by
    rw [skipWhile]
    split <;> simp_all
  rw [next.eq_def lexer, next.eq_def lexer.bump, skipped]

/-- A comment that a lexer looks at has no part in the next token. -/
theorem next_of_comment_ahead (looks : lexer.lookahead = some '#') :
    lexer.next = (lexer.mark.skipWhile inComment).next := by
  have stays : lexer.skipWhile isBlank = lexer := by
    rw [skipWhile]
    split
    · next found some =>
      obtain rfl := Option.some.inj (looks.symm.trans some)
      rw [if_neg (by decide)]
    · rfl
  rw [next.eq_def lexer, stays]
  dsimp only
  split
  · next none =>
    rw [show lexer.mark.lookahead = lexer.lookahead from rfl, looks] at none
    contradiction
  · next found some =>
    obtain rfl := Option.some.inj (looks.symm.trans some)
    rw [dif_pos rfl]

/-- A gap in front of a lexer has no part in the next token. -/
theorem next_of_gap (front : Gap gap others) (ahead : lexer.ahead = gap ++ others) :
    ∃ later : Lexer σ, lexer.next = later.next ∧ later.ahead = others := by
  induction front generalizing lexer with
  | nil => exact ⟨lexer, rfl, ahead⟩
  | blank blank _ ih =>
    obtain ⟨looks, behind⟩ := ahead_eq_cons_iff.mp ahead
    obtain ⟨later, same, left⟩ := ih behind
    exact ⟨later, (next_of_blank_ahead looks blank).trans same, left⟩
  | @comment text gap others inside ends _ ih =>
    have behind : (lexer.mark.skipWhile inComment).ahead = gap ++ others := by
      rw [ahead_skipWhile, ahead_mark, ahead, List.cons_append, List.append_assoc,
        List.dropWhile_cons_of_pos (by decide)]
      exact (part_of_test inside ends).2
    obtain ⟨later, same, left⟩ := ih behind
    exact ⟨later, (next_of_comment_ahead (ahead_eq_cons_iff.mp ahead).1).trans same, left⟩

/-- A lexer answers the tokens of the lexemes that are ahead of it. -/
theorem tokens_of_segmented (cut : Segmented finish segments chars) (ahead : lexer.ahead = chars) :
    (TokenSource.ahead lexer).map (·.token) = segments.map (·.token) := by
  induction cut generalizing lexer with
  | nil gap =>
    obtain ⟨later, same, nothing⟩ := next_of_gap gap (ahead.trans (List.append_nil _).symm)
    have finished : (TokenSource.next lexer).1.token = .endOfInput := by
      change lexer.next.1.token = .endOfInput
      rw [same]
      exact next_of_blank (by simp [nothing])
    rw [TokenSource.ahead_of_finished finished, List.map_nil, List.map_nil]
  | @cons segment segments others gap lexeme maximal _ ih =>
    obtain ⟨later, same, left⟩ := next_of_gap gap ahead
    obtain ⟨token_eq, rest⟩ := next_of_lexeme lexeme maximal left
    have read : (TokenSource.next lexer).1.token = segment.token := by
      change lexer.next.1.token = segment.token
      rw [same, token_eq]
    have behind : lexer.next.2.ahead = others := by rw [same, rest]
    have found : (TokenSource.next lexer).1.token ≠ .endOfInput := by
      rw [read]
      exact lexeme.ne_endOfInput
    rw [TokenSource.ahead_of_found found, List.map_cons, List.map_cons, read]
    exact congrArg _ (ih behind)

end Lexer

/-- The tokens of a text are those of its lexemes. -/
theorem lex_of_segmented {text : String} (cut : Segmented finish segments text.toList) :
    lex text = segments.map (·.token) := by
  -- A fresh lexer looks at a blank that is not in the text.
  have blank : Gap [' '] text.toList := .blank (by decide) (.nil _)
  obtain ⟨finish', whole⟩ := cut.prepend blank
  have ahead : (Lexer.ofSource text.toList).ahead = [' '] ++ text.toList := by
    rw [Lexer.ahead_ofSource, CharSource.ahead_list, List.singleton_append]
  rw [lex, locatedTokens, TokenSource.toList_drain, List.nil_append,
    Lexer.tokens_of_segmented whole ahead, map_token_widen]

/-- Every text is cut into gaps and lexemes in one way only, and together they are the text. Its
tokens are those of the lexemes. -/
theorem exists_unique_segmentation (text : String) :
    ∃ cut : Segmentation, cut.Cuts text.toList ∧
      (∀ other : Segmentation, other.Cuts text.toList → other = cut) ∧
      cut.chars = text.toList ∧ lex text = cut.tokens := by
  obtain ⟨segments, finish, cut⟩ := exists_segmented text.toList
  refine ⟨⟨segments, finish⟩, cut, ?_, cut.chars_eq, lex_of_segmented cut⟩
  rintro ⟨segments', finish'⟩ cut'
  obtain ⟨rfl, rfl⟩ := Segmented.unique cut' cut
  rfl

/-! ### Lexemes with blanks between them -/

theorem Gap.of_blank (blank : ∀ char ∈ gap, isBlank char = true) (others : List Char) :
    Gap gap others := by
  induction gap with
  | nil => exact .nil others
  | cons char gap ih =>
    obtain ⟨first, behind⟩ := List.forall_mem_cons.mp blank
    exact .blank first (ih behind)

theorem Spaced.segmented {tokens : List Token} (spaced : Spaced tokens chars) :
    ∃ segments finish, Segmented finish segments chars ∧ segments.map (·.token) = tokens := by
  induction spaced with
  | @nil gap blank => exact ⟨[], gap, .nil (.of_blank blank []), rfl⟩
  | @cons token tokens gap lexeme others blank spells separated _ ih =>
    obtain ⟨segments, finish, cut, tokens_eq⟩ := ih
    refine ⟨⟨gap, lexeme, token⟩ :: segments, finish, .cons (.of_blank blank _) spells ?_ cut,
      congrArg (token :: ·) tokens_eq⟩
    exact fun char head => continues_of_isBlank token (separated char head)

/-- Texts in which blanks stand between the lexemes are cut back into their tokens. -/
theorem lex_of_spaced {tokens : List Token} {text : String} (spaced : Spaced tokens text.toList) :
    lex text = tokens := by
  obtain ⟨segments, finish, cut, tokens_eq⟩ := spaced.segmented
  rw [lex_of_segmented cut, tokens_eq]

end OpLang
