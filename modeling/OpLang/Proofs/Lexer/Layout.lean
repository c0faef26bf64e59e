import Mathlib.Data.List.Forall2
import OpLang.Proofs.Lexer.Remainder

/-! # Layout

Gaps part lexemes and move them, and nothing else. If two texts have the same lexemes and each gap
of the one ends where the gap of the other does, then a lexer answers the same tokens at the same
places over both, at the end of input too.

Two ways to change the gaps of a text keep their ends where they are: a carriage return may be put
in front of every newline, and blanks may be put in the place of every comment.
-/

namespace OpLang

/-! ### Where gaps end -/

/-- Where characters end follows from which of them are newlines. -/
theorem Location.behind_congr {chars others : List Char}
    (same : others.map (· == '\n') = chars.map (· == '\n')) : behind others = behind chars := by
  have lines (chars : List Char) : chars.count '\n' = (chars.map (· == '\n')).count true := by
    rw [List.count, List.count, List.countP_map]
    exact List.countP_congr fun char _ => by simp
  have columns (chars : List Char) : (chars.reverse.takeWhile (· != '\n')).length =
      ((chars.map (· == '\n')).reverse.takeWhile (!·)).length := by
    rw [← List.map_reverse, List.takeWhile_map, List.length_map]
    rfl
  rw [behind, behind, lines, columns, same, ← lines, ← columns]

/-- Where characters end follows from where their parts end. -/
theorem Location.behind_append_congr {front front' back back' : List Char}
    (first : behind front' = behind front) (second : behind back' = behind back) :
    behind (front' ++ back') = behind (front ++ back) := by
  obtain ⟨lines, columns⟩ := Location.mk.inj first
  rw [behind_append, behind_append, second, past, past, Nat.succ.inj lines, Nat.succ.inj columns]

/-- The same lexeme and token, behind a gap that ends in the same place. -/
structure Segment.Respaces (segment other : Segment) : Prop where
  gap : Location.behind other.gap = .behind segment.gap
  lexeme : other.lexeme = segment.lexeme
  token : other.token = segment.token

/-- The same lexemes and tokens, and all gaps end in the same places. -/
structure Segmentation.Respaces (cut other : Segmentation) : Prop where
  segments : List.Forall₂ Segment.Respaces cut.segments other.segments
  finish : Location.behind other.finish = .behind cut.finish

/-- Where the lexemes are the same and the gaps end in the same places, so do the tokens begin. -/
theorem locate_respaced {segments others : List Segment} {passed passed' : List Char}
    (respaced : List.Forall₂ Segment.Respaces segments others)
    (same : Location.behind passed' = .behind passed) :
    locate passed' others = locate passed segments := by
  induction respaced generalizing passed passed' with
  | nil => rfl
  | cons first _ ih =>
    have front := Location.behind_append_congr same first.gap
    have whole := Location.behind_append_congr front (congrArg Location.behind first.lexeme)
    rw [List.append_assoc, List.append_assoc] at whole
    rw [locate, locate, first.token, front, ih whole]

/-- Where the lexemes are the same and the gaps end in the same places, the last lexemes do too. -/
theorem behind_respaced {segments others : List Segment}
    (respaced : List.Forall₂ Segment.Respaces segments others) :
    Location.behind (others.flatMap fun segment => segment.gap ++ segment.lexeme) =
      .behind (segments.flatMap fun segment => segment.gap ++ segment.lexeme) := by
  induction respaced with
  | nil => rfl
  | cons first _ ih =>
    rw [List.flatMap_cons, List.flatMap_cons, first.lexeme]
    exact Location.behind_append_congr (Location.behind_append_congr first.gap rfl) ih

/-- The texts end in the same place. -/
theorem Segmentation.Respaces.behind_eq {cut other : Segmentation} {chars others : List Char}
    (respaced : cut.Respaces other) (cuts : cut.Cuts chars) (cuts' : other.Cuts others) :
    Location.behind others = .behind chars := by
  rw [← cuts.chars_eq, ← cuts'.chars_eq]
  exact Location.behind_append_congr (behind_respaced respaced.segments) respaced.finish

namespace Lexer

/-- What a lexer over a text answers to a call, counted from zero, and where it says afterwards that
the token began. -/
def answer (text : String) (call : Nat) : LocatedToken × Location :=
  let (found, lexer) := ((ofSource text.toList).after call).next
  (found, lexer.start)

/-- What a lexer reads up to the end of input are the tokens of the segments at their places. -/
theorem ahead_of_segmented {σ : Type} [CharSource σ] {lexer : Lexer σ}
    {finish chars passed : List Char} {segments : List Segment}
    (cut : Segmented finish segments chars) (counted : lexer.Counted passed)
    (ahead : lexer.ahead = chars) : TokenSource.ahead lexer = locate passed segments := by
  induction cut generalizing lexer passed with
  | nil gap =>
    obtain ⟨found, _⟩ := (next_reads lexer passed counted).of_gap (ahead ▸ gap)
    exact TokenSource.ahead_of_finished (congrArg (·.token) found)
  | cons gap lexeme maximal _ ih =>
    obtain ⟨found, _, left, counts⟩ :=
      (next_reads lexer passed counted).of_segment gap lexeme maximal ahead
    have token : (TokenSource.next lexer).1.token ≠ .endOfInput := by
      change lexer.next.1.token ≠ .endOfInput
      rw [found]
      exact lexeme.ne_endOfInput
    rw [TokenSource.ahead_of_found token, locate]
    exact congrArg₂ List.cons found (ih counts left)

/-- A fresh lexer reads the tokens of its source at their places. -/
theorem ahead_ofSource_of_segmented {σ : Type} [CharSource σ] {source : σ} {finish : List Char}
    {segments : List Segment} (cut : Segmented finish segments (CharSource.ahead source)) :
    TokenSource.ahead (ofSource source) = locate [] segments := by
  rw [← ahead_of_segmented cut (counted_bump_ofSource source) (ahead_bump_ofSource source)]
  exact TokenSource.ahead_congr (next_ofSource source)

variable {text : String} {cut : Segmentation}

/-- A lexer over a text that is cut answers the tokens of the lexemes, and then the end of input. -/
theorem answer_eq (cuts : cut.Cuts text.toList) (call : Nat) :
    let token := ((locate [] cut.segments)[call]?).getD ⟨.endOfInput, .behind text.toList⟩
    answer text call = (token, token.location) := by
  have ahead := (ahead_bump_ofSource text.toList).trans (CharSource.ahead_list _)
  obtain ⟨found, start, _⟩ := next_after_of_segmented cuts (counted_bump_ofSource _) ahead call
  rw [← next_after_congr (next_ofSource text.toList)] at found start
  exact Prod.ext found (start.trans (congrArg (·.location) found))

theorem locatedTokens_eq (cuts : cut.Cuts text.toList) :
    locatedTokens text = locate [] cut.segments := by
  have chars := CharSource.ahead_list text.toList
  rw [locatedTokens, TokenSource.toList_drain, List.nil_append]
  exact ahead_ofSource_of_segmented (chars.symm ▸ cuts)

end Lexer

/-! ### Places that fit into the counters -/

/-- Behind all beginnings of a text, lines and columns fit into 32 bits. -/
def PlacesFit (text : String) : Prop :=
  ∀ before, before <+: text.toList →
    (Location.behind before).line < UInt32.size ∧ (Location.behind before).column < UInt32.size

/-- The counters of a lexer over a text fit into 32 bits after every call. -/
def Lexer.CountersFit (text : String) : Prop :=
  ∀ call, ((ofSource text.toList).after call).next.2.line < UInt32.size ∧
    ((ofSource text.toList).after call).next.2.column < UInt32.size

/-- The places of a text fit if it is short enough. -/
theorem PlacesFit.of_length {text : String} (short : text.length < UInt32.size - 1) :
    PlacesFit text := by
  intro before inside
  have bounds := Location.behind_le before
  have length : before.length ≤ text.length := inside.length_le
  omega

example : PlacesFit "a # b\r\nc" := .of_length (by decide)

/-- Wherever a lexer has come to, it looks at a place behind a beginning of its text. -/
theorem PlacesFit.counters {text : String} (fit : PlacesFit text) : Lexer.CountersFit text := by
  intro call
  obtain ⟨_, _, cut⟩ := exists_segmented text.toList
  have ahead := (Lexer.ahead_bump_ofSource text.toList).trans (CharSource.ahead_list _)
  obtain ⟨_, _, before, inside, counted⟩ :=
    Lexer.next_after_of_segmented cut (Lexer.counted_bump_ofSource _) ahead call
  rw [Lexer.next_after_congr (Lexer.next_ofSource text.toList), counted.line, counted.column]
  exact fit before inside

/-! ### Line ends -/

/-- Characters with a carriage return in front of every newline. -/
def withReturns (chars : List Char) : List Char :=
  chars.flatMap fun char => if char = '\n' then ['\r', '\n'] else [char]

theorem withReturns_append (chars others : List Char) :
    withReturns (chars ++ others) = withReturns chars ++ withReturns others :=
  List.flatMap_append

theorem withReturns_cons_of_ne {char : Char} (other : char ≠ '\n') (chars : List Char) :
    withReturns (char :: chars) = char :: withReturns chars := by
  rw [withReturns, List.flatMap_cons, if_neg other]
  rfl

theorem withReturns_of_notMem {chars : List Char} (absent : '\n' ∉ chars) :
    withReturns chars = chars := by
  induction chars with
  | nil => rfl
  | cons char chars ih =>
    obtain ⟨other, others⟩ := List.ne_and_not_mem_of_not_mem_cons absent
    rw [withReturns_cons_of_ne other.symm, ih others]

/-- A carriage return takes a column only on a line that the newline behind it ends. -/
theorem Location.behind_withReturns (chars : List Char) :
    behind (withReturns chars) = behind chars := by
  induction chars using List.reverseRecOn with
  | nil => rfl
  | append_singleton chars char ih =>
    rw [withReturns_append]
    by_cases newline : char = '\n'
    · subst newline
      change behind (withReturns chars ++ ['\r', '\n']) = _
      rw [List.append_cons, behind_append_singleton, behind_append_singleton, ih,
        behind_append_singleton]
      rfl
    · rw [withReturns_cons_of_ne newline]
      exact behind_append_congr ih rfl

/-- The places of a text are among those of the text with carriage returns. -/
theorem PlacesFit.of_withReturns {text : String}
    (fit : PlacesFit (.ofList (withReturns text.toList))) : PlacesFit text := by
  rintro before ⟨others, whole⟩
  rw [← Location.behind_withReturns before]
  refine fit _ ⟨withReturns others, ?_⟩
  rw [← withReturns_append, whole, String.toList_ofList]

variable {chars others gap finish : List Char} {segments : List Segment}

/-- What begins the changed characters has begun them before, or it is a carriage return. -/
theorem head_withReturns {char : Char} (head : char ∈ (withReturns chars).head?) :
    char = '\r' ∨ char ∈ chars.head? := by
  cases chars with
  | nil => contradiction
  | cons first chars =>
    by_cases newline : first = '\n'
    · subst newline
      exact .inl (Option.some.inj head).symm
    · rw [withReturns_cons_of_ne newline] at head
      exact .inr head

/-- Both a newline and the carriage return in front of it are blanks, and both end a comment. -/
theorem Gap.withReturns (front : Gap gap others) :
    Gap (withReturns gap) (withReturns others) := by
  induction front with
  | nil others => exact .nil _
  | @blank char gap others blank _ ih =>
    by_cases newline : char = '\n'
    · subst newline
      exact .blank (by decide) (.blank blank ih)
    · rw [withReturns_cons_of_ne newline]
      exact .blank blank ih
  | @comment text gap others inside ends _ ih =>
    have absent : '\n' ∉ text := fun member => absurd (inside _ member) (by decide)
    rw [withReturns_cons_of_ne (by decide), withReturns_append, withReturns_of_notMem absent]
    refine .comment inside (fun char head => ?_) ih
    rw [← withReturns_append] at head
    rcases head_withReturns head with rfl | head
    · decide
    · exact ends char head

/-- The segment with carriage returns in its gap; its lexeme has no newline. -/
def Segment.withReturns (segment : Segment) : Segment :=
  { segment with gap := OpLang.withReturns segment.gap }

theorem Segmented.withReturns (cut : Segmented finish segments chars) :
    Segmented (withReturns finish) (segments.map .withReturns) (withReturns chars) := by
  induction cut with
  | nil gap => exact .nil gap.withReturns
  | @cons segment segments others gap lexeme maximal _ ih =>
    have same : OpLang.withReturns segment.lexeme = segment.lexeme :=
      withReturns_of_notMem lexeme.newline_notMem
    have front := gap.withReturns
    rw [withReturns_append, same] at front
    rw [withReturns_append, withReturns_append, same]
    -- At most a carriage return is new behind the lexeme.
    refine .cons front lexeme (fun char head => ?_) ih
    rcases head_withReturns head with rfl | head
    · exact continues_of_isBlank _ (by decide)
    · exact maximal char head

/-- Carriage returns in front of the newlines leave the ends of all gaps where they are. -/
theorem Segmentation.respaces_withReturns (cut : Segmentation) :
    cut.Respaces ⟨cut.segments.map .withReturns, withReturns cut.finish⟩ where
  segments := by
    rw [List.forall₂_map_right_iff, List.forall₂_same]
    exact fun segment _ => ⟨Location.behind_withReturns segment.gap, rfl, rfl⟩
  finish := Location.behind_withReturns cut.finish

example : withReturns "a#b\n\r\nc".toList = "a#b\r\n\r\r\nc".toList := by decide

/-! ### Comments -/

/-- No character up to the one at an index ends the line. -/
def OnLine (chars : List Char) (index : Nat) : Prop :=
  ∀ between ≤ index, chars[between]?.any Lexer.inComment = true

/-- The character at an index belongs to a comment: it is a `#`, or one stands in front of it on the
same line. -/
def Commented (chars : List Char) (index : Nat) : Prop :=
  ∃ start ≤ index, chars[start]? = some '#' ∧ OnLine (chars.drop start) (index - start)

/-- A blank stands in the place of each character that belongs to a comment, and all others are the
same. -/
structure BlanksComments (chars others : List Char) : Prop where
  inside : ∀ index, Commented chars index → others[index]? = some ' '
  outside : ∀ index, ¬ Commented chars index → others[index]? = chars[index]?

/-- Characters with blanks in the places of comments. A comment may have been open before them. -/
def blankFrom (inside : Bool) : List Char → List Char
  | [] => []
  | char :: chars =>
    let belongs := Lexer.inComment char && (inside || char == '#')
    (if belongs then ' ' else char) :: blankFrom belongs chars

/-- Characters with blanks in the places of comments. -/
def blankComments (chars : List Char) : List Char := blankFrom false chars

theorem onLine_succ {char : Char} {index : Nat} :
    OnLine (char :: chars) (index + 1) ↔ Lexer.inComment char = true ∧ OnLine chars index := by
  constructor
  · exact fun goes => ⟨goes 0 (Nat.zero_le _), fun between inside =>
      goes (between + 1) (Nat.succ_le_succ inside)⟩
  · rintro ⟨first, goes⟩ between inside
    cases between with
    | zero => exact first
    | succ between => exact goes between (Nat.le_of_succ_le_succ inside)

theorem onLine_zero {char : Char} :
    OnLine (char :: chars) 0 ↔ Lexer.inComment char = true := by
  constructor
  · exact fun goes => goes 0 (Nat.le_refl 0)
  · intro first between none
    obtain rfl := Nat.le_zero.mp none
    exact first

theorem commented_zero {char : Char} : Commented (char :: chars) 0 ↔ char = '#' := by
  constructor
  · rintro ⟨start, none, looks, _⟩
    obtain rfl := Nat.le_zero.mp none
    exact Option.some.inj looks
  · rintro rfl
    exact ⟨0, Nat.le_refl 0, rfl, onLine_zero.mpr (by decide)⟩

/-- A comment that reaches a character begins in front of all others or further behind. -/
theorem commented_succ {char : Char} {index : Nat} :
    Commented (char :: chars) (index + 1) ↔
      char = '#' ∧ OnLine chars index ∨ Commented chars index := by
  constructor
  · rintro ⟨_ | start, below, looks, goes⟩
    · exact .inl ⟨Option.some.inj looks, (onLine_succ.mp goes).2⟩
    · rw [Nat.add_sub_add_right] at goes
      exact .inr ⟨start, Nat.le_of_succ_le_succ below, looks, goes⟩
  · rintro (⟨rfl, goes⟩ | ⟨start, below, looks, goes⟩)
    · exact ⟨0, Nat.zero_le _, rfl, onLine_succ.mpr ⟨by decide, goes⟩⟩
    · refine ⟨start + 1, Nat.succ_le_succ below, looks, ?_⟩
      rw [Nat.add_sub_add_right]
      exact goes

/-- Which characters are blanked: those of an open comment up to the end of the line, and those of
the comments that begin behind it. -/
def Blanked (inside : Bool) (chars : List Char) (index : Nat) : Prop :=
  inside = true ∧ OnLine chars index ∨ Commented chars index

theorem not_blanked_nil (inside : Bool) (index : Nat) : ¬ Blanked inside [] index := by
  rintro (⟨_, goes⟩ | ⟨start, _, looks, _⟩)
  · exact absurd (goes 0 (Nat.zero_le _)) (by simp)
  · simp at looks

theorem blanked_zero {inside : Bool} {char : Char} : Blanked inside (char :: chars) 0 ↔
    (Lexer.inComment char && (inside || char == '#')) = true := by
  rw [Blanked, onLine_zero, commented_zero]
  by_cases comment : char = '#'
  · subst comment
    simp [Lexer.inComment]
  · simp [comment, and_comm]

theorem blanked_succ {inside : Bool} {char : Char} {index : Nat} :
    Blanked inside (char :: chars) (index + 1) ↔
      Blanked (Lexer.inComment char && (inside || char == '#')) chars index := by
  rw [Blanked, Blanked, onLine_succ, commented_succ]
  by_cases comment : char = '#'
  · subst comment
    have goes : Lexer.inComment '#' = true := by decide
    simp [goes]
    tauto
  · simp [comment]
    tauto

theorem getElem?_blankFrom (inside : Bool) (chars : List Char) (index : Nat) :
    Blanked inside chars index ∧ (blankFrom inside chars)[index]? = some ' ' ∨
      ¬ Blanked inside chars index ∧ (blankFrom inside chars)[index]? = chars[index]? := by
  -- Each character may open or close a comment, so the induction is about both cases at once.
  induction chars generalizing inside index with
  | nil => exact .inr ⟨not_blanked_nil inside index, rfl⟩
  | cons char chars ih =>
    cases index with
    | zero =>
      rw [blanked_zero, blankFrom]
      cases Lexer.inComment char && (inside || char == '#') <;> simp
    | succ index =>
      rw [blanked_succ, blankFrom]
      exact ih _ index

/-- Blanks stand in the places of comments and nowhere else. -/
theorem blanksComments (chars : List Char) : BlanksComments chars (blankComments chars) where
  inside index commented := by
    rcases getElem?_blankFrom false chars index with ⟨_, blank⟩ | ⟨outside, _⟩
    · exact blank
    · exact absurd (.inr commented) outside
  outside index plain := by
    rcases getElem?_blankFrom false chars index with ⟨⟨no, _⟩ | commented, _⟩ | ⟨_, same⟩
    · contradiction
    · exact absurd commented plain
    · exact same

/-! ### Blanks in the places of comments -/

/-- What begins the changed characters has begun them before, or it is a blank. -/
theorem head_blankFrom {inside : Bool} {char : Char}
    (head : char ∈ (blankFrom inside chars).head?) : char = ' ' ∨ char ∈ chars.head? := by
  cases chars with
  | nil => contradiction
  | cons first chars =>
    rw [blankFrom, List.head?_cons] at head
    obtain rfl := Option.some.inj head
    split
    · exact .inl rfl
    · exact .inr rfl

/-- Where the line ends, no comment is open any more. -/
theorem blankFrom_of_ends (ends : ∀ char ∈ chars.head?, Lexer.inComment char = false) :
    blankFrom true chars = blankFrom false chars := by
  cases chars with
  | nil => rfl
  | cons char chars => rw [blankFrom, blankFrom, ends char rfl, Bool.false_and, Bool.false_and]

theorem blankFrom_comment {text : List Char}
    (inside : ∀ char ∈ text, Lexer.inComment char = true) (others : List Char) :
    blankFrom true (text ++ others) = List.replicate text.length ' ' ++ blankFrom true others := by
  induction text with
  | nil => rfl
  | cons char text ih =>
    obtain ⟨first, behind⟩ := List.forall_mem_cons.mp inside
    have belongs : (Lexer.inComment char && (true || char == '#')) = true := by simp [first]
    rw [List.cons_append, blankFrom, belongs, ih behind]
    rfl

theorem blankFrom_of_notMem (absent : '#' ∉ chars) (others : List Char) :
    blankFrom false (chars ++ others) = chars ++ blankFrom false others := by
  induction chars with
  | nil => rfl
  | cons char chars ih =>
    obtain ⟨first, behind⟩ := List.ne_and_not_mem_of_not_mem_cons absent
    have plain : (Lexer.inComment char && (false || char == '#')) = false := by
      simp [first.symm]
    rw [List.cons_append, blankFrom, plain, ih behind]
    rfl

/-- Newlines are not blanked, and nothing else becomes one. -/
theorem newlines_blankFrom (inside : Bool) (chars : List Char) :
    (blankFrom inside chars).map (· == '\n') = chars.map (· == '\n') := by
  induction chars generalizing inside with
  | nil => rfl
  | cons char chars ih =>
    rw [blankFrom, List.map_cons, List.map_cons, ih]
    congr 1
    split
    · next belongs =>
      have goes : char ≠ '\n' := by
        rintro rfl
        exact absurd belongs (by simp [Lexer.inComment])
      simp [goes]
    · rfl

/-- A gap becomes one of as many blanks. -/
theorem Gap.exists_blanks (front : Gap gap others) : ∃ blanks,
    blankFrom false (gap ++ others) = blanks ++ blankFrom false others ∧
      (∀ char ∈ blanks, isBlank char = true) ∧ blanks.length = gap.length := by
  induction front with
  | nil others => exact ⟨[], rfl, by simp, rfl⟩
  | @blank char gap others blank _ ih =>
    obtain ⟨blanks, same, all, size⟩ := ih
    have plain : '#' ∉ [char] := by
      rw [List.mem_singleton]
      rintro rfl
      exact absurd blank (by decide)
    exact ⟨char :: blanks, (blankFrom_of_notMem plain _).trans (congrArg _ same),
      List.forall_mem_cons.mpr ⟨blank, all⟩, congrArg Nat.succ size⟩
  | @comment text gap others inside closes _ ih =>
    obtain ⟨blanks, same, all, size⟩ := ih
    -- The comment is open behind its `#`, and what follows its text ends the line.
    have first : blankFrom false ('#' :: (text ++ (gap ++ others))) =
        ' ' :: blankFrom true (text ++ (gap ++ others)) := rfl
    refine ⟨List.replicate (text.length + 1) ' ' ++ blanks, ?_, ?_, ?_⟩
    · rw [List.cons_append, List.append_assoc, first, blankFrom_comment inside,
        blankFrom_of_ends closes, same, List.replicate_succ, List.cons_append, List.cons_append,
        List.append_assoc]
    · intro char member
      rcases List.mem_append.mp member with blank | blank
      · obtain rfl := List.eq_of_mem_replicate blank
        decide
      · exact all char blank
    · simp only [List.length_append, List.length_replicate, List.length_cons, size]
      omega

/-- The blanks end where the gap ends. -/
theorem Gap.exists_blanks_behind (front : Gap gap others) : ∃ blanks,
    blankFrom false (gap ++ others) = blanks ++ blankFrom false others ∧
      (∀ char ∈ blanks, isBlank char = true) ∧ Location.behind blanks = .behind gap := by
  obtain ⟨blanks, same, all, size⟩ := front.exists_blanks
  have newlines := newlines_blankFrom false (gap ++ others)
  rw [same, List.map_append, List.map_append] at newlines
  have lengths : (blanks.map (· == '\n')).length = (gap.map (· == '\n')).length := by
    rw [List.length_map, List.length_map, size]
  exact ⟨blanks, same, all, Location.behind_congr (List.append_inj newlines lengths).1⟩

theorem Lexeme.hash_notMem {token : Token} (lexeme : Lexeme token chars) : '#' ∉ chars := by
  intro member
  have solid := lexeme.solid_of_mem _ member
  exact solid.2 rfl

/-- Blanks take the places of comments in the gaps; the lexemes are the same. -/
theorem Segmented.exists_blankFrom (cut : Segmented finish segments chars) :
    ∃ others last, List.Forall₂ Segment.Respaces segments others ∧
      Location.behind last = .behind finish ∧
        Segmented last others (blankFrom false chars) := by
  induction cut with
  | nil gap =>
    obtain ⟨blanks, same, all, ends⟩ := gap.exists_blanks_behind
    rw [List.append_nil] at same
    rw [same]
    refine ⟨[], blanks, .nil, ends, ?_⟩
    have last : Gap blanks [] := .of_blank all []
    rw [blankFrom, List.append_nil]
    exact .nil last
  | @cons segment segments others gap lexeme maximal _ ih =>
    obtain ⟨blanks, same, all, ends⟩ := gap.exists_blanks_behind
    obtain ⟨behind, last, respaced, finish_eq, cut⟩ := ih
    rw [same, blankFrom_of_notMem lexeme.hash_notMem]
    refine ⟨⟨blanks, segment.lexeme, segment.token⟩ :: behind, last,
      .cons ⟨ends, rfl, rfl⟩ respaced, finish_eq,
      .cons (.of_blank all _) lexeme (fun char head => ?_) cut⟩
    rcases head_blankFrom head with rfl | head
    · exact continues_of_isBlank _ (by decide)
    · exact maximal char head

/-- Blanks in the places of comments leave the ends of all gaps where they are. -/
theorem Segmentation.Cuts.exists_blankComments {cut : Segmentation} (cuts : cut.Cuts chars) :
    ∃ other : Segmentation, cut.Respaces other ∧ other.Cuts (blankComments chars) := by
  obtain ⟨others, last, respaced, ends, cut'⟩ := cuts.exists_blankFrom
  exact ⟨⟨others, last⟩, ⟨respaced, ends⟩, cut'⟩

example : blankComments "a#b'#c\r\n# d\n1 #".toList = "a     \r\n   \n1  ".toList := by decide

end OpLang
