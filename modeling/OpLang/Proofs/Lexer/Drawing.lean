import Mathlib.Logic.Function.Iterate
import OpLang.Proofs.Lexer.Segmentation

/-! # What a lexer asks of its source

A lexer asks its source once for each character that it passes, and it never passes the end of
input. So what has been asked follows from what is still ahead: with a token, the characters up to
the end of its lexeme and the one behind them; with the end of input, all characters and once more.
-/

namespace OpLang

namespace CharSource

variable {σ : Type} [CharSource σ]

/-- A source after some questions. -/
def after (questions : Nat) (source : σ) : σ := (fun source => (next source).2)^[questions] source

theorem after_succ (questions : Nat) (source : σ) :
    after (questions + 1) source = (next (after questions source)).2 :=
  Function.iterate_succ_apply' _ _ _

theorem after_add (first second : Nat) (source : σ) :
    after (first + second) source = after second (after first source) := by
  rw [Nat.add_comm, after, Function.iterate_add_apply, after, after]

end CharSource

/-- The questions asked of a source are counted one by one. -/
theorem Metered.pulled_after {σ : Type} [CharSource σ] (questions : Nat) (source : σ) :
    (CharSource.after questions (ofSource source)).pulled = questions := by
  induction questions with
  | zero => rfl
  | succ questions ih =>
    rw [CharSource.after_succ]
    exact congrArg (· + 1) ih

/-- A source hands out the same characters while it is counted how often it is asked. -/
@[simp] theorem Metered.ahead_eq {σ : Type} [CharSource σ] (metered : Metered σ) :
    CharSource.ahead metered = CharSource.ahead metered.source := by
  obtain ⟨source, pulled⟩ := metered
  induction chars : CharSource.ahead source generalizing source pulled with
  | nil =>
    cases answer : (CharSource.next source).1 with
    | none => exact CharSource.ahead_of_none answer
    | some char =>
      rw [CharSource.ahead_of_some answer] at chars
      contradiction
  | cons char others ih =>
    cases answer : (CharSource.next source).1 with
    | none =>
      rw [CharSource.ahead_of_none answer] at chars
      contradiction
    | some found =>
      rw [CharSource.ahead_of_some answer] at chars
      obtain ⟨rfl, behind⟩ := List.cons.inj chars
      have metered : (CharSource.next (⟨source, pulled⟩ : Metered σ)).1 = some found := answer
      rw [CharSource.ahead_of_some metered]
      exact congrArg (found :: ·) (ih _ _ behind)

namespace Lexer

variable {σ : Type} [CharSource σ] {lexer middle rest : Lexer σ} {char : Char}
  {finish : List Char} {segments : List Segment}

/-- A lexer passes characters and asks its source once for each of them. -/
def Draws (lexer rest : Lexer σ) : Prop :=
  ∃ passed : List Char, lexer.ahead = passed ++ rest.ahead ∧
    rest.source = CharSource.after passed.length lexer.source

theorem Draws.refl (lexer : Lexer σ) : lexer.Draws lexer := ⟨[], rfl, rfl⟩

theorem Draws.trans (first : lexer.Draws middle) (second : middle.Draws rest) :
    lexer.Draws rest := by
  obtain ⟨passed, ahead, source⟩ := first
  obtain ⟨further, ahead', source'⟩ := second
  refine ⟨passed ++ further, ?_, ?_⟩
  · rw [ahead, ahead', List.append_assoc]
  · rw [source', source, List.length_append, CharSource.after_add]

theorem draws_bump (looks : lexer.lookahead = some char) : lexer.Draws lexer.bump :=
  ⟨[char], ahead_of_some looks, source_bump lexer⟩

theorem draws_skipWhile (test : Char → Bool) (lexer : Lexer σ) :
    lexer.Draws (lexer.skipWhile test) := by
  fun_induction skipWhile test lexer with
  | case1 lexer char looks _ ih => exact (draws_bump looks).trans ih
  | case2 | case3 => exact .refl _

theorem draws_takeWhile (test : Char → Bool) (taken : Array Char) (lexer : Lexer σ) :
    lexer.Draws (lexer.takeWhile test taken).2 := by
  fun_induction takeWhile test taken lexer with
  | case1 _ lexer char looks _ ih => exact (draws_bump looks).trans ih
  | case2 | case3 => exact .refl _

theorem draws_token (looks : lexer.lookahead = some char) :
    lexer.Draws (lexer.token char).2 := by
  unfold token
  split
  · exact draws_takeWhile _ _ _
  · split
    · exact draws_takeWhile _ _ _
    · exact draws_bump looks

/-- Reading a token asks for what it passes, and at the end of input for nothing. -/
theorem draws_next (lexer : Lexer σ) : lexer.Draws lexer.next.2 := by
  fun_induction next lexer with
  | case1 lexer => exact draws_skipWhile isBlank lexer
  | case2 lexer marked _ ih =>
    have skipped : lexer.Draws marked := draws_skipWhile isBlank lexer
    exact (skipped.trans (draws_skipWhile inComment marked)).trans ih
  | case3 lexer marked char looks _ token rest read =>
    have skipped : lexer.Draws marked := draws_skipWhile isBlank lexer
    have drawn := draws_token looks
    rw [read] at drawn
    exact skipped.trans drawn

/-- Since a fresh lexer looks at a blank that its source knows nothing of, one question more has
been asked than characters of the source have been passed. -/
theorem Draws.source_eq {source : σ} {front : List Char} (draws : (ofSource source).Draws lexer)
    (whole : CharSource.ahead source = front ++ lexer.ahead) :
    lexer.source = CharSource.after (front.length + 1) source := by
  obtain ⟨passed, ahead, asked⟩ := draws
  rw [ahead_ofSource, whole] at ahead
  have same : ' ' :: front = passed := List.append_cancel_right ahead
  rw [asked, ← same]
  rfl

/-- Segments are left, and the first of them is the token at hand: the lexer stands right behind its
lexeme. Where none is left, nothing is ahead. -/
inductive Faces (finish : List Char) : List Segment → Token → Lexer σ → Prop where
  | finished {lexer : Lexer σ} (nothing : lexer.ahead = []) : Faces finish [] .endOfInput lexer
  | found {segment : Segment} {segments : List Segment} {lexer : Lexer σ}
    (lexeme : Lexeme segment.token segment.lexeme)
    (behind : Segmented finish segments lexer.ahead) :
    Faces finish (segment :: segments) segment.token lexer

/-- The next token faces the segments that are ahead. -/
theorem faces_next (cut : Segmented finish segments lexer.ahead) :
    Faces finish segments lexer.next.1.token lexer.next.2 := by
  generalize ahead : lexer.ahead = chars at cut
  cases cut with
  | nil gap =>
    obtain ⟨later, same, nothing⟩ := next_of_gap gap (ahead.trans (List.append_nil _).symm)
    have finished : lexer.next.1.token = .endOfInput := by
      rw [same]
      exact next_of_blank (by simp [nothing])
    obtain ⟨passed, left, _⟩ := draws_next later
    rw [nothing] at left
    rw [finished, same]
    exact .finished (List.append_eq_nil_iff.mp left.symm).2
  | cons gap lexeme maximal behind =>
    obtain ⟨later, same, left⟩ := next_of_gap gap ahead
    obtain ⟨token, rest⟩ := next_of_lexeme lexeme maximal left
    rw [same, token]
    exact .found lexeme (rest.symm ▸ behind)

theorem Faces.eq_nil_iff {current : Token} (faces : Faces finish segments current lexer) :
    segments = [] ↔ current = .endOfInput := by
  cases faces with
  | finished => simp
  | found lexeme => simp [lexeme.ne_endOfInput]

theorem Faces.current_eq {current : Token} (faces : Faces finish segments current lexer) :
    current = (segments.head?.map (·.token)).getD .endOfInput := by
  cases faces <;> rfl

theorem Faces.ahead_eq_nil {current : Token} (faces : Faces finish [] current lexer) :
    lexer.ahead = [] := by
  cases faces with
  | finished nothing => exact nothing

/-- The next token faces the segments behind. -/
theorem Faces.next {current : Token} (faces : Faces finish segments current lexer) :
    Faces finish segments.tail lexer.next.1.token lexer.next.2 := by
  cases faces with
  | finished nothing =>
    have cut : Segmented [] [] lexer.ahead := by
      rw [nothing]
      exact .nil (.nil [])
    have faces := faces_next cut
    generalize lexer.next.1.token = answer at faces ⊢
    cases faces with
    | finished nothing => exact .finished nothing
  | found _ behind => exact faces_next behind

end Lexer

/-- How many characters there are up to the end of a lexeme, which is counted from zero, or in all
where there is no such lexeme. -/
def Segmentation.reach (cut : Segmentation) (index : Nat) : Nat :=
  if index < cut.segments.length then
    ((cut.segments.take (index + 1)).flatMap fun segment => segment.gap ++ segment.lexeme).length
  else cut.chars.length

theorem Segmentation.reach_of_length_le {cut : Segmentation} {index : Nat}
    (past : cut.segments.length ≤ index) : cut.reach index = cut.chars.length :=
  if_neg (Nat.not_lt.mpr past)

/-- A lexer that faces a segment has asked for the characters up to its end and for one more; at the
end of input it has asked for all characters and once more. -/
theorem Lexer.Faces.source_eq {σ : Type} [CharSource σ] {lexer : Lexer σ} {source : σ}
    {current : Token} {cut : Segmentation} {front others : List Segment}
    (faces : Faces cut.finish others current lexer) (draws : (ofSource source).Draws lexer)
    (cuts : cut.Cuts (CharSource.ahead source)) (whole : cut.segments = front ++ others) :
    lexer.source = CharSource.after (cut.reach front.length + 1) source := by
  have chars : cut.chars = CharSource.ahead source := cuts.chars_eq
  cases faces with
  | finished nothing =>
    have past : ¬ front.length < cut.segments.length := by
      rw [whole, List.append_nil]
      exact Nat.lt_irrefl _
    rw [Segmentation.reach, if_neg past, chars]
    apply draws.source_eq
    rw [nothing, List.append_nil]
  | @found segment segments _ _ behind =>
    have inside : front.length < cut.segments.length := by
      rw [whole, List.length_append, List.length_cons]
      omega
    have taken : cut.segments.take (front.length + 1) = front ++ [segment] := by
      rw [whole, List.append_cons]
      exact List.take_left' (by simp)
    rw [Segmentation.reach, if_pos inside, taken]
    apply draws.source_eq
    rw [← chars, Segmentation.chars, whole, List.append_cons, List.flatMap_append,
      List.append_assoc, behind.chars_eq]

/-- No lexeme goes over the end of a line. -/
theorem Lexeme.newline_notMem {token : Token} {chars : List Char} (lexeme : Lexeme token chars) :
    '\n' ∉ chars := by
  intro member
  have solid := lexeme.solid_of_mem _ member
  exact absurd solid.1 (by decide)

/-- The characters up to the end of a lexeme do not end with a newline. -/
theorem Segmentation.exists_reach {cut : Segmentation} {chars : List Char} {index : Nat}
    (cuts : cut.Cuts chars) (inside : index < cut.segments.length) :
    ∃ passed others, chars = passed ++ others ∧ passed.length = cut.reach index ∧
      passed.getLast? ≠ some '\n' := by
  refine ⟨_, (cut.segments.drop (index + 1)).flatMap (fun segment =>
    segment.gap ++ segment.lexeme) ++ cut.finish, ?_, (if_pos inside).symm, ?_⟩
  · rw [← List.append_assoc, ← List.flatMap_append, List.take_append_drop]
    exact cuts.chars_eq.symm
  · have lexeme := cuts.lexeme cut.segments[index] (List.getElem_mem inside)
    rw [List.take_succ_eq_append_getElem inside, List.flatMap_append, List.flatMap_singleton,
      ← List.append_assoc, List.getLast?_append, List.getLast?_eq_some_getLast lexeme.ne_nil,
      Option.some_or]
    intro last
    exact lexeme.newline_notMem (Option.some.inj last ▸ List.getLast_mem lexeme.ne_nil)

end OpLang
