import OpLang.Proofs.Lexer.Layout

/-! # Counters of 32 bits

A lexer counts without a bound. Counters of 32 bits that take the same steps and wrap around hold
what it holds up to a multiple of 2^32, so the place that they tell follows from its place: where
two texts have their tokens at the same places, they have them at the same places in 32 bits too. As
long as a place fits into 32 bits, both counts tell it.
-/

namespace OpLang

/-- A line and a column of 32 bits. -/
structure Counters where
  line : UInt32
  column : UInt32
deriving DecidableEq, Repr

namespace Counters

/-- The counters when what was looked at has been passed. -/
def pass (counters : Counters) (passed? : Option Char) : Counters :=
  if passed? = some '\n' then ⟨counters.line + 1, 1⟩ else ⟨counters.line, counters.column + 1⟩

/-- The place that the counters tell. -/
def location (counters : Counters) : Location :=
  ⟨counters.line.toNat, max counters.column.toNat 1⟩

/-- The counters behind some characters. -/
def behind (chars : List Char) : Counters :=
  chars.foldl (fun counters char => counters.pass (some char)) ⟨1, 1⟩

end Counters

/-- The place that counters of 32 bits tell instead. -/
def Location.wrapped (location : Location) : Location :=
  ⟨location.line % UInt32.size, max (location.column % UInt32.size) 1⟩

/-- What counters of 32 bits hold where a lexer has come to. -/
def Lexer.counters {σ : Type} (lexer : Lexer σ) : Counters :=
  ⟨.ofNat lexer.line, .ofNat lexer.column⟩

/-! ### Steps of the counters -/

/-- Passing a character is a step of the counters. -/
theorem Lexer.counters_bump {σ : Type} [CharSource σ] (lexer : Lexer σ) :
    lexer.bump.counters = lexer.counters.pass lexer.lookahead := by
  unfold bump Counters.pass
  dsimp only
  split <;> simp [counters]

/-- The place that the counters tell follows from that of the lexer. -/
theorem Lexer.location_counters {σ : Type} (lexer : Lexer σ) :
    lexer.counters.location = lexer.location.wrapped := by
  have column : max (lexer.column % UInt32.size) 1 = max (max lexer.column 1 % UInt32.size) 1 := by
    rcases Nat.eq_zero_or_pos lexer.column with fresh | counted
    · rw [fresh]
      rfl
    · rw [Nat.max_eq_left counted]
  rw [Counters.location, Location.wrapped, Lexer.location, ← column]
  rfl

/-! ### Runs of the counters -/

theorem Counters.behind_append_singleton (chars : List Char) (char : Char) :
    behind (chars ++ [char]) = (behind chars).pass (some char) := by
  rw [behind, List.foldl_append, behind]
  rfl

/-- Behind some characters the counters hold the line and the column, each in 32 bits. -/
theorem Counters.behind_eq (chars : List Char) :
    let place := Location.behind chars
    behind chars = ⟨.ofNat place.line, .ofNat place.column⟩ := by
  induction chars using List.reverseRecOn with
  | nil => rfl
  | append_singleton chars char ih =>
    rw [behind_append_singleton, ih, Location.behind_append_singleton, pass]
    simp only [Option.some.injEq]
    split <;> simp

/-- The place that the counters tell behind some characters follows from the place there. -/
theorem Counters.location_behind (chars : List Char) :
    (behind chars).location = (Location.behind chars).wrapped := by
  rw [behind_eq]
  rfl

/-- A lexer has counted characters in 32 bits as the counters have. -/
theorem Lexer.Counted.counters {σ : Type} {lexer : Lexer σ} {passed : List Char}
    (counted : lexer.Counted passed) : lexer.counters = .behind passed := by
  rw [Lexer.counters, counted.line, counted.column, Counters.behind_eq]

/-! ### Where both counts agree -/

/-- A place that fits into 32 bits is told as it is. -/
theorem PlacesFit.wrapped {text : String} {before : List Char} (fit : PlacesFit text)
    (beginning : before <+: text.toList) :
    (Location.behind before).wrapped = .behind before := by
  obtain ⟨line, column⟩ := fit before beginning
  have counted : 1 ≤ (Location.behind before).column := Nat.succ_pos _
  rw [Location.wrapped, Nat.mod_eq_of_lt line, Nat.mod_eq_of_lt column, Nat.max_eq_left counted]

/-- What stands in front of a lexeme is a beginning of the text. -/
theorem Segmented.beginning {finish chars : List Char} {segments : List Segment} {segment : Segment}
    {index : Nat} (cut : Segmented finish segments chars)
    (found : segments[index]? = some segment) :
    (segments.take index).flatMap (fun segment => segment.gap ++ segment.lexeme) ++
      segment.gap <+: chars := by
  induction cut generalizing index with
  | nil => contradiction
  | cons gap lexeme maximal behind ih =>
    cases index with
    | zero =>
      obtain rfl := Option.some.inj found
      exact List.prefix_append _ _
    | succ index =>
      rw [List.take_succ_cons, List.flatMap_cons, List.append_assoc, List.append_assoc,
        List.prefix_append_right_inj, List.prefix_append_right_inj]
      exact ih found

/-- Every answer of a lexer is found at the place behind a beginning of its text. -/
theorem Lexer.exists_beginning (text : String) (call : Nat) :
    ∃ before, before <+: text.toList ∧ (answer text call).1.location = .behind before := by
  obtain ⟨segments, finish, cut⟩ := exists_segmented text.toList
  have cuts : Segmentation.Cuts ⟨segments, finish⟩ text.toList := cut
  have found := congrArg (·.1.location) (answer_eq cuts call)
  simp only [getElem?_locate, List.nil_append] at found
  cases reached : segments[call]? with
  | none =>
    rw [reached] at found
    exact ⟨text.toList, List.prefix_rfl, found⟩
  | some segment =>
    rw [reached] at found
    exact ⟨_, cut.beginning reached, found⟩

/-- Counters of 32 bits that have counted the text in front of an answer tell its place up to
wrapping around, and the place itself where all places of the text fit. -/
theorem Lexer.answer_counters (text : String) (call : Nat) :
    let place := (answer text call).1.location
    ∃ before, before <+: text.toList ∧ place = .behind before ∧
      (Counters.behind before).location = place.wrapped ∧
        (PlacesFit text → place.wrapped = place) := by
  obtain ⟨before, beginning, same⟩ := exists_beginning text call
  rw [same]
  exact ⟨before, beginning, rfl, Counters.location_behind before, fun fit => fit.wrapped beginning⟩

end OpLang
