import Mathlib.Logic.Function.Iterate
import OpLang.Proofs.Lexer.Segmentation

/-! # Where tokens stand

The place of a character follows from the characters in front of it: every newline starts a line,
and the characters behind the last newline take a column each. A lexer counts while it passes
characters, and for a newline it does so only when it looks at the character behind it. All the same
it answers every token with the place of the first character of its lexeme, and the end of input
with the place behind the last character, however often it is asked.
-/

namespace OpLang

namespace Location

/-- Where the character behind some others stands. -/
def behind (chars : List Char) : Location :=
  ⟨chars.count '\n' + 1, (chars.reverse.takeWhile (· != '\n')).length + 1⟩

theorem behind_nil : behind [] = first := rfl

/-- Only a newline starts a line; blanks, carriage returns and characters of comments are as wide as
any other. -/
theorem behind_append_singleton (chars : List Char) (char : Char) :
    behind (chars ++ [char]) =
      if char = '\n' then ⟨(behind chars).line + 1, 1⟩
      else ⟨(behind chars).line, (behind chars).column + 1⟩ := by
  split
  · next newline =>
    subst newline
    simp [behind]
  · next other => simp [behind, List.count_append, other]

/-- A line holds no more characters than there are, and there are no more lines than characters. -/
theorem behind_le (chars : List Char) :
    (behind chars).line ≤ chars.length + 1 ∧ (behind chars).column ≤ chars.length + 1 := by
  have lines := List.count_le_length (a := '\n') (l := chars)
  have columns := (List.takeWhile_prefix (l := chars.reverse) (· != '\n')).length_le
  rw [List.length_reverse] at columns
  exact ⟨Nat.succ_le_succ lines, Nat.succ_le_succ columns⟩

end Location

namespace Lexer

variable {σ : Type}

/-- A lexer that has counted these characters looks at the place behind them. -/
structure Counted (passed : List Char) (lexer : Lexer σ) : Prop where
  line : lexer.line = (Location.behind passed).line
  column : lexer.column = (Location.behind passed).column

theorem Counted.location {lexer : Lexer σ} {passed : List Char} (counted : lexer.Counted passed) :
    lexer.location = .behind passed := by
  rw [Lexer.location, counted.line, counted.column]
  exact congrArg (Location.mk _) (Nat.max_eq_left (Nat.succ_pos _))

/-- A lexer that has counted few enough characters counts in 32 bits. -/
theorem Counted.fits {lexer : Lexer σ} {passed : List Char} (counted : lexer.Counted passed)
    (short : passed.length < UInt32.size - 1) :
    lexer.line < UInt32.size ∧ lexer.column < UInt32.size := by
  have bounds := Location.behind_le passed
  rw [counted.line, counted.column]
  omega

variable [CharSource σ] {lexer : Lexer σ} {passed : List Char} {char : Char}

theorem Counted.bump (counted : lexer.Counted passed) (looks : lexer.lookahead = some char) :
    lexer.bump.Counted (passed ++ [char]) := by
  have place := Location.behind_append_singleton passed char
  unfold Lexer.bump
  simp only [looks, Option.some.injEq]
  split
  · next newline =>
    rw [if_pos newline] at place
    constructor <;> simp [place, counted.line]
  · next other =>
    rw [if_neg other] at place
    constructor <;> simp [place, counted.line, counted.column]

theorem Counted.skipWhile (test : Char → Bool) (counted : lexer.Counted passed) :
    (lexer.skipWhile test).Counted (passed ++ lexer.ahead.takeWhile test) := by
  fun_induction Lexer.skipWhile test lexer generalizing passed with
  | case1 lexer char looks passes ih =>
    have behind := ih (counted.bump looks)
    rwa [ahead_of_some looks, List.takeWhile_cons_of_pos passes, List.append_cons]
  | case2 lexer char looks fails =>
    rwa [ahead_of_some looks, List.takeWhile_cons_of_neg fails, List.append_nil]
  | case3 lexer looks => rwa [ahead_of_none looks, List.takeWhile_nil, List.append_nil]

theorem Counted.takeWhile (test : Char → Bool) (taken : Array Char)
    (counted : lexer.Counted passed) :
    (lexer.takeWhile test taken).2.Counted (passed ++ lexer.ahead.takeWhile test) := by
  fun_induction Lexer.takeWhile test taken lexer generalizing passed with
  | case1 taken lexer char looks passes ih =>
    have behind := ih (counted.bump looks)
    rwa [ahead_of_some looks, List.takeWhile_cons_of_pos passes, List.append_cons]
  | case2 taken lexer char looks fails =>
    rwa [ahead_of_some looks, List.takeWhile_cons_of_neg fails, List.append_nil]
  | case3 taken lexer looks => rwa [ahead_of_none looks, List.takeWhile_nil, List.append_nil]

theorem start_bump (lexer : Lexer σ) : lexer.bump.start = lexer.start := by
  unfold bump
  dsimp only
  split <;> rfl

theorem start_takeWhile (test : Char → Bool) (taken : Array Char) (lexer : Lexer σ) :
    (lexer.takeWhile test taken).2.start = lexer.start := by
  fun_induction takeWhile test taken lexer with
  | case1 taken lexer char looks passes ih => rw [ih, start_bump]
  | case2 | case3 => rfl

theorem start_token (lexer : Lexer σ) (char : Char) :
    (lexer.token char).2.start = lexer.start := by
  unfold token
  split
  · exact start_takeWhile _ _ _
  · split
    · exact start_takeWhile _ _ _
    · exact start_bump _

/-- Reading a token counts the characters that it takes. -/
theorem Counted.token (counted : lexer.Counted passed) (looks : lexer.lookahead = some char) :
    ∃ taken, lexer.ahead = taken ++ (lexer.token char).2.ahead ∧
      (lexer.token char).2.Counted (passed ++ taken) := by
  have part (test : Char → Bool) : ∃ taken,
      lexer.ahead = taken ++ (lexer.takeWhile test #[]).2.ahead ∧
        (lexer.takeWhile test #[]).2.Counted (passed ++ taken) :=
    ⟨_, by rw [ahead_takeWhile, List.takeWhile_append_dropWhile], counted.takeWhile test #[]⟩
  unfold Lexer.token
  split
  · exact part _
  · split
    · exact part _
    · exact ⟨[char], ahead_of_some looks, counted.bump looks⟩

/-! ### What one call reads -/

/-- A call of a lexer that has counted some characters: either nothing but a gap was left, or a
segment was read. Both times the answer bears the place behind the gap. -/
inductive Reads (passed : List Char) (lexer : Lexer σ) : LocatedToken × Lexer σ → Prop where
  | finished {rest : Lexer σ} (gap : Gap lexer.ahead []) (nothing : rest.ahead = [])
    (counted : rest.Counted (passed ++ lexer.ahead))
    (start : rest.start = .behind (passed ++ lexer.ahead)) :
    Reads passed lexer (⟨.endOfInput, rest.start⟩, rest)
  | found {segment : Segment} {rest : Lexer σ}
    (gap : Gap segment.gap (segment.lexeme ++ rest.ahead))
    (lexeme : Lexeme segment.token segment.lexeme)
    (maximal : ∀ char ∈ rest.ahead.head?, segment.token.continues char = false)
    (whole : lexer.ahead = segment.gap ++ (segment.lexeme ++ rest.ahead))
    (counted : rest.Counted (passed ++ (segment.gap ++ segment.lexeme)))
    (start : rest.start = .behind (passed ++ segment.gap)) :
    Reads passed lexer (⟨segment.token, rest.start⟩, rest)

/-- A gap in front becomes part of the gap that was read. -/
theorem Reads.prepend {later : Lexer σ} {front : List Char} {answer : LocatedToken × Lexer σ}
    (first : Gap front later.ahead) (ahead : lexer.ahead = front ++ later.ahead)
    (reads : later.Reads (passed ++ front) answer) : lexer.Reads passed answer := by
  cases reads with
  | @finished rest gap nothing counted start =>
    rw [List.append_assoc, ← ahead] at counted start
    refine .finished ?_ nothing counted start
    rw [ahead]
    exact Gap.append (by rwa [List.append_nil]) gap
  | @found segment rest gap lexeme maximal whole counted start =>
    rw [whole] at first
    rw [List.append_assoc] at start
    rw [List.append_assoc, ← List.append_assoc front] at counted
    have wider : lexer.ahead = front ++ segment.gap ++ (segment.lexeme ++ rest.ahead) := by
      rw [ahead, whole, List.append_assoc]
    exact @found _ _ passed lexer ⟨front ++ segment.gap, segment.lexeme, segment.token⟩ rest
      (Gap.append first gap) lexeme maximal wider counted start

/-- A lexer that looks at the start of a lexeme reads it. -/
theorem reads_token (counted : lexer.Counted passed) (start : lexer.start = .behind passed)
    (looks : lexer.lookahead = some char) (notBlank : isBlank char = false)
    (notComment : char ≠ '#') :
    lexer.Reads passed (⟨(lexer.token char).1, lexer.start⟩, (lexer.token char).2) := by
  obtain ⟨token, chars, others, whole, lexeme, maximal⟩ :=
    exists_lexeme notBlank notComment lexer.bump.ahead
  rw [← ahead_of_some looks] at whole
  obtain ⟨first, same, _, read, left⟩ := token_of_lexeme lexeme maximal whole
  obtain rfl := Option.some.inj (looks.symm.trans same)
  obtain ⟨taken, split, onwards⟩ := counted.token looks
  obtain rfl : taken = chars := by
    rw [whole, left] at split
    exact (List.append_cancel_right split).symm
  rw [read, ← start_token lexer char]
  rw [← start_token lexer char] at start
  rw [← left] at whole maximal
  rw [← List.append_nil passed] at start
  exact @Reads.found _ _ passed lexer ⟨[], taken, token⟩ _ (.nil _) lexeme maximal whole onwards
    start

/-- What a lexer reads behind the blanks in front of it, it reads. -/
theorem Reads.of_blanks {answer : LocatedToken × Lexer σ} (counted : lexer.Counted passed)
    (onwards : ∀ before, (lexer.skipWhile isBlank).mark.Counted before →
      (lexer.skipWhile isBlank).mark.start = .behind before →
        (lexer.skipWhile isBlank).mark.Reads before answer) : lexer.Reads passed answer := by
  have skipped := counted.skipWhile isBlank
  have marked : (lexer.skipWhile isBlank).mark.Counted (passed ++ lexer.ahead.takeWhile isBlank) :=
    ⟨skipped.line, skipped.column⟩
  refine Reads.prepend (.of_blank (fun _ => List.mem_takeWhile_imp) _) ?_
    (onwards _ marked skipped.location)
  rw [ahead_mark, ahead_skipWhile, List.takeWhile_append_dropWhile]

/-- What a lexer reads behind the comment in front of it, it reads. -/
theorem Reads.of_comment {answer : LocatedToken × Lexer σ} (counted : lexer.Counted passed)
    (looks : lexer.lookahead = some '#')
    (onwards : ∀ before, (lexer.skipWhile inComment).Counted before →
      (lexer.skipWhile inComment).Reads before answer) : lexer.Reads passed answer := by
  have line : Gap (lexer.ahead.takeWhile inComment) (lexer.skipWhile inComment).ahead := by
    rw [ahead_skipWhile, ahead_of_some looks, List.takeWhile_cons_of_pos (by decide),
      List.dropWhile_cons_of_pos (by decide), ← List.append_nil (List.takeWhile _ _)]
    exact .comment (fun _ => List.mem_takeWhile_imp) head_dropWhile_fails (.nil _)
  refine .prepend line ?_ (onwards _ (counted.skipWhile inComment))
  rw [ahead_skipWhile, List.takeWhile_append_dropWhile]

/-- Every call reads. -/
theorem next_reads (lexer : Lexer σ) :
    ∀ passed, lexer.Counted passed → lexer.Reads passed lexer.next := by
  fun_induction next lexer with
  | case1 lexer marked looks =>
    intro passed counted
    refine .of_blanks counted fun before marks start => ?_
    have nothing : marked.ahead = [] := ahead_of_none looks
    have all : before ++ marked.ahead = before := by rw [nothing, List.append_nil]
    exact .finished (nothing ▸ .nil []) nothing (all.symm ▸ marks) (all.symm ▸ start)
  | case2 lexer marked looks ih =>
    intro passed counted
    refine .of_blanks counted fun before marks _ => ?_
    exact .of_comment marks looks ih
  | case3 lexer marked char looks notComment token rest read =>
    intro passed counted
    refine .of_blanks counted fun before marks start => ?_
    have notBlank : isBlank char = false := by
      have looked : char ∈ (lexer.ahead.dropWhile isBlank).head? := by
        rw [← ahead_skipWhile, ← ahead_mark, ahead_of_some looks]
        rfl
      exact head_dropWhile_fails char looked
    have reads := reads_token marks start looks notBlank notComment
    rw [read] at reads
    exact reads

/-- A lexer with nothing but a gap ahead answers the end of input. -/
theorem Reads.of_gap {answer : LocatedToken × Lexer σ} (reads : lexer.Reads passed answer)
    (gap : Gap lexer.ahead []) :
    answer.1 = ⟨.endOfInput, .behind (passed ++ lexer.ahead)⟩ ∧
      answer.2.start = answer.1.location ∧ answer.2.ahead = [] ∧
      answer.2.Counted (passed ++ lexer.ahead) := by
  cases reads with
  | finished _ nothing counted start => exact ⟨by rw [start], rfl, nothing, counted⟩
  | found gap' lexeme _ whole =>
    have same := (List.append_nil lexer.ahead).trans whole
    obtain ⟨_, rest⟩ := gap.unique gap' solid_nil lexeme.solid same
    exact absurd rest.symm (List.append_ne_nil_of_left_ne_nil lexeme.ne_nil _)

/-- A lexer with a segment ahead answers its token. -/
theorem Reads.of_segment {answer : LocatedToken × Lexer σ} (reads : lexer.Reads passed answer)
    {segment : Segment} {others : List Char} (gap : Gap segment.gap (segment.lexeme ++ others))
    (lexeme : Lexeme segment.token segment.lexeme)
    (maximal : ∀ char ∈ others.head?, segment.token.continues char = false)
    (whole : lexer.ahead = segment.gap ++ (segment.lexeme ++ others)) :
    answer.1 = ⟨segment.token, .behind (passed ++ segment.gap)⟩ ∧
      answer.2.start = answer.1.location ∧ answer.2.ahead = others ∧
      answer.2.Counted (passed ++ (segment.gap ++ segment.lexeme)) := by
  cases reads with
  | finished gap' =>
    have same := whole.symm.trans (List.append_nil lexer.ahead).symm
    obtain ⟨_, rest⟩ := gap.unique gap' lexeme.solid solid_nil same
    exact absurd rest (List.append_ne_nil_of_left_ne_nil lexeme.ne_nil _)
  | @found segment' rest gap' lexeme' maximal' whole' counted start =>
    obtain ⟨gap_eq, behind⟩ :=
      gap.unique gap' lexeme.solid lexeme'.solid (whole.symm.trans whole')
    obtain ⟨token_eq, lexeme_eq, rfl⟩ := lexeme.unique lexeme' maximal maximal' behind
    obtain rfl : segment = segment' := Segment.ext gap_eq lexeme_eq token_eq
    exact ⟨by rw [start], rfl, rfl, counted⟩

/-! ### What all calls answer -/

/-- A lexer after some calls. -/
def after (calls : Nat) (lexer : Lexer σ) : Lexer σ := (fun lexer => lexer.next.2)^[calls] lexer

theorem after_succ (calls : Nat) (lexer : Lexer σ) :
    lexer.after (calls + 1) = lexer.next.2.after calls :=
  Function.iterate_succ_apply _ _ _

theorem next_after_congr {other : Lexer σ} (same : lexer.next = other.next) (calls : Nat) :
    (lexer.after calls).next = (other.after calls).next := by
  cases calls with
  | zero => exact same
  | succ calls => rw [after_succ, after_succ, same]

end Lexer

/-- The tokens of segments at their places, with some characters in front of the segments. -/
def locate (passed : List Char) : List Segment → List LocatedToken
  | [] => []
  | segment :: segments =>
    ⟨segment.token, .behind (passed ++ segment.gap)⟩ ::
      locate (passed ++ (segment.gap ++ segment.lexeme)) segments

theorem map_token_locate (passed : List Char) (segments : List Segment) :
    (locate passed segments).map (·.token) = segments.map (·.token) := by
  induction segments generalizing passed with
  | nil => rfl
  | cons segment segments ih => rw [locate, List.map_cons, List.map_cons, ih]

theorem getElem?_locate (passed : List Char) (segments : List Segment) (index : Nat) :
    (locate passed segments)[index]? = segments[index]?.map fun segment =>
      ⟨segment.token, .behind (passed ++
        ((segments.take index).flatMap (fun segment => segment.gap ++ segment.lexeme) ++
          segment.gap))⟩ := by
  induction segments generalizing passed index with
  | nil => rfl
  | cons segment segments ih =>
    cases index with
    | zero => simp [locate]
    | succ index =>
      simp only [locate, List.getElem?_cons_succ, ih, List.take_succ_cons, List.flatMap_cons,
        List.append_assoc]

namespace Lexer

variable {σ : Type} [CharSource σ] {lexer : Lexer σ} {passed chars finish : List Char}
  {segments : List Segment}

/-- However often a lexer that has only a gap ahead is called, it answers the end of input. -/
theorem next_after_of_gap (counted : lexer.Counted passed) (gap : Gap lexer.ahead [])
    (calls : Nat) :
    (lexer.after calls).next.1 = ⟨.endOfInput, .behind (passed ++ lexer.ahead)⟩ ∧
      (lexer.after calls).next.2.start = (lexer.after calls).next.1.location ∧
      (lexer.after calls).next.2.Counted (passed ++ lexer.ahead) := by
  obtain ⟨answer, start, nothing, counts⟩ := (next_reads lexer passed counted).of_gap gap
  induction calls generalizing lexer passed with
  | zero => exact ⟨answer, start, counts⟩
  | succ calls ih =>
    have none : Gap lexer.next.2.ahead [] := nothing ▸ .nil []
    obtain ⟨answer', start', nothing', counts'⟩ := (next_reads _ _ counts).of_gap none
    have all := ih counts none answer' start' nothing' counts'
    rw [nothing, List.append_nil] at all
    rwa [after_succ]

/-- The calls of a lexer answer the tokens of the segments ahead of it at their places, and then the
end of input. -/
theorem next_after_of_segmented (cut : Segmented finish segments chars)
    (counted : lexer.Counted passed) (ahead : lexer.ahead = chars) (calls : Nat) :
    (lexer.after calls).next.1 =
        ((locate passed segments)[calls]?).getD ⟨.endOfInput, .behind (passed ++ chars)⟩ ∧
      (lexer.after calls).next.2.start = (lexer.after calls).next.1.location ∧
      ∃ before, before <+: passed ++ chars ∧ (lexer.after calls).next.2.Counted before := by
  induction cut generalizing lexer passed calls with
  | nil gap =>
    subst ahead
    obtain ⟨answer, start, counts⟩ := next_after_of_gap counted gap calls
    exact ⟨answer, start, _, List.prefix_rfl, counts⟩
  | @cons segment segments others gap lexeme maximal behind ih =>
    obtain ⟨answer, start, left, counts⟩ :=
      (next_reads lexer passed counted).of_segment gap lexeme maximal ahead
    rw [← List.append_assoc segment.gap, ← List.append_assoc passed]
    cases calls with
    | zero => exact ⟨answer, start, _, List.prefix_append _ _, counts⟩
    | succ calls =>
      rw [after_succ]
      exact ih counts left calls

/-- A fresh lexer passes the blank that it looks at, and then it has counted nothing. -/
theorem next_ofSource (source : σ) : (ofSource source).next = (ofSource source).bump.next :=
  next_of_blank_ahead rfl (by decide)

theorem counted_bump_ofSource (source : σ) : (ofSource source).bump.Counted [] :=
  ⟨rfl, rfl⟩

theorem ahead_bump_ofSource (source : σ) :
    (ofSource source).bump.ahead = CharSource.ahead source := by
  have fresh := ahead_ofSource source
  rw [ahead_of_some rfl] at fresh
  exact (List.cons.inj fresh).2

/-- What the calls of a lexer over a text have to do with a cut of the text. -/
structure Locates (text : String) (cut : Segmentation) : Prop where
  /-- The place of the answer is kept as the start of the token. -/
  start : ∀ calls, ((ofSource text.toList).after calls).next.2.start =
    ((ofSource text.toList).after calls).next.1.location
  /-- Each call answers the token of the next lexeme at the place behind all that is in front. -/
  found : ∀ calls segment, cut.segments[calls]? = some segment →
    ((ofSource text.toList).after calls).next.1 = ⟨segment.token, .behind
      ((cut.segments.take calls).flatMap (fun segment => segment.gap ++ segment.lexeme) ++
        segment.gap)⟩
  /-- Past the last lexeme every call answers the end of input at the place behind the text. -/
  finished : ∀ calls, cut.segments.length ≤ calls →
    ((ofSource text.toList).after calls).next.1 = ⟨.endOfInput, .behind text.toList⟩
  /-- A newline of the text starts a line, and any other character of it takes a column. -/
  step : ∀ before char others, text.toList = before ++ char :: others →
    Location.behind (before ++ [char]) =
      if char = '\n' then ⟨(Location.behind before).line + 1, 1⟩
      else ⟨(Location.behind before).line, (Location.behind before).column + 1⟩
  /-- The counters fit into 32 bits. -/
  fits : ∀ calls, ((ofSource text.toList).after calls).next.2.line < UInt32.size ∧
    ((ofSource text.toList).after calls).next.2.column < UInt32.size

/-- Every call answers with the place of the first character of its lexeme, and behind the last
lexeme with the place behind the last character. -/
theorem exists_located_cut (text : String) (short : text.length < UInt32.size - 1) :
    ∃ cut : Segmentation, cut.Cuts text.toList ∧ Locates text cut := by
  obtain ⟨segments, finish, cut⟩ := exists_segmented text.toList
  have ahead := (ahead_bump_ofSource text.toList).trans (CharSource.ahead_list _)
  have answers (calls : Nat) :=
    next_after_of_segmented cut (counted_bump_ofSource _) ahead calls
  simp only [← next_after_congr (next_ofSource text.toList), getElem?_locate,
    List.nil_append] at answers
  refine ⟨⟨segments, finish⟩, cut, ?_, ?_, ?_, ?_, ?_⟩
  · exact fun calls => (answers calls).2.1
  · intro calls segment found
    rw [(answers calls).1, found, Option.map_some, Option.getD_some]
  · intro calls past
    rw [(answers calls).1, List.getElem?_eq_none past, Option.map_none, Option.getD_none]
  · exact fun before char _ _ => Location.behind_append_singleton before char
  · intro calls
    obtain ⟨_, _, before, inside, counted⟩ := answers calls
    exact counted.fits <| calc
      before.length ≤ text.length := inside.length_le
      _ < UInt32.size - 1 := short

/-- The text has a wide character, a tabulator, comments, a line that ends in two characters, and
an end without a newline. -/
theorem exists_located_cut_of_comments : "é\t# x\r\n y\n# z".length < UInt32.size - 1 ∧
    ∃ cut : Segmentation, cut.Cuts "é\t# x\r\n y\n# z".toList ∧
      Locates "é\t# x\r\n y\n# z" cut := by
  have short : "é\t# x\r\n y\n# z".length < UInt32.size - 1 := by decide
  exact ⟨short, exists_located_cut _ short⟩

end Lexer

end OpLang
