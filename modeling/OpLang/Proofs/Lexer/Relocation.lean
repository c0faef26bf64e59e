import Mathlib.Data.List.Induction
import OpLang.Proofs.Lexer.Places

/-! # Texts one behind the other

A newline ends whatever stands in front of it: a gap with an open comment is a gap, and the last
lexeme of a text has the same token as before. So what stands on the next lines does not change the
tokens of a text. Neither does a text change the tokens on the next lines, but they stand lower than
they would without it.
-/

namespace OpLang

/-- The place in the same column some lines lower. -/
def Location.lower (lines : Nat) (location : Location) : Location :=
  { location with line := location.line + lines }

theorem Location.lower_lower (location : Location) (lines more : Nat) :
    (location.lower lines).lower more = location.lower (lines + more) :=
  congrArg (mk · location.column) (Nat.add_assoc _ _ _)

/-- The token at another place. -/
def LocatedToken.moved (move : Location → Location) (token : LocatedToken) : LocatedToken :=
  { token with location := move token.location }

/-- Lines in front lower a place, and columns are counted from the last newline. -/
theorem Location.behind_append_newline (front passed : List Char) :
    behind (front ++ '\n' :: passed) = (behind passed).lower (front.count '\n' + 1) := by
  induction passed using List.reverseRecOn with
  | nil =>
    rw [behind_append_singleton, if_pos rfl, behind_nil]
    exact congrArg (mk · 1) (Nat.add_comm _ _)
  | append_singleton passed char ih =>
    rw [← List.cons_append, ← List.append_assoc, behind_append_singleton, ih,
      behind_append_singleton]
    split
    · exact congrArg (mk · 1) (Nat.add_right_comm _ _ _)
    · rfl

variable {chars others gap finish : List Char} {segments : List Segment}

/-- A gap is a gap in front of other characters too, unless they continue its last comment. -/
theorem Gap.before {others' : List Char} (front : Gap gap others)
    (ends : ∀ char ∈ others'.head?, Lexer.inComment char = false ∨ char ∈ others.head?) :
    Gap gap others' := by
  induction front with
  | nil others => exact .nil others'
  | blank blank _ ih => exact .blank blank (ih ends)
  | @comment text gap others inside stops _ ih =>
    refine .comment inside (fun char head => ?_) (ih ends)
    cases gap with
    | nil => exact (ends char head).elim id (stops char)
    | cons first gap => exact stops char head

/-- A newline belongs to the gap in front of it. -/
theorem Gap.newline (last : Gap gap []) (others : List Char) : Gap (gap ++ ['\n']) others := by
  refine Gap.append (last.before fun char head => .inl ?_) (.blank (by decide) (.nil others))
  obtain rfl : '\n' = char := by simpa using head
  decide

/-- A text that is cut may be cut in the same way in front of a newline and a text that is cut
too. -/
theorem Segmented.append_newline {finish' : List Char} {segments' : List Segment}
    (cut : Segmented finish segments chars) (behind : Segmented finish' segments' others) :
    ∃ last, Segmented last (segments ++ widen (finish ++ ['\n']) segments')
      (chars ++ '\n' :: others) := by
  induction cut with
  | nil gap =>
    rw [List.append_cons finish '\n' others]
    exact behind.prepend (gap.newline others)
  | @cons segment segments chars gap lexeme maximal _ ih =>
    obtain ⟨last, whole⟩ := ih
    refine ⟨last, ?_⟩
    rw [List.append_assoc, List.append_assoc, List.cons_append]
    -- A lexeme stands behind the gap, and at most the newline is new behind the lexeme.
    refine .cons (gap.before fun char head => .inr ?_) lexeme (fun char head => ?_) whole
    · obtain ⟨first, more, spelled, _⟩ := lexeme.eq_cons
      rw [spelled] at head ⊢
      exact head
    · cases chars with
      | nil =>
        obtain rfl : '\n' = char := by simpa using head
        exact continues_of_isBlank _ (by decide)
      | cons first chars => exact maximal char head

/-! ### Where the tokens stand -/

theorem locate_append (passed : List Char) (segments more : List Segment) :
    locate passed (segments ++ more) = locate passed segments ++
      locate (passed ++ segments.flatMap fun segment => segment.gap ++ segment.lexeme) more := by
  induction segments generalizing passed with
  | nil => rw [List.flatMap_nil, List.append_nil]; rfl
  | cons segment segments ih =>
    rw [List.cons_append, locate, locate, ih, List.cons_append, List.flatMap_cons,
      List.append_assoc passed]

theorem locate_widen (passed front : List Char) (segments : List Segment) :
    locate passed (widen front segments) = locate (passed ++ front) segments := by
  cases segments with
  | nil => rfl
  | cons segment segments => simp only [widen, locate, List.append_assoc]

/-- Behind a newline tokens stand where they would stand in a text of their own, but lower. -/
theorem locate_lower (front passed : List Char) (segments : List Segment) :
    locate (front ++ '\n' :: passed) segments =
      (locate passed segments).map (·.moved (.lower (front.count '\n' + 1))) := by
  induction segments generalizing passed with
  | nil => rfl
  | cons segment segments ih =>
    rw [locate, locate, List.map_cons, List.append_assoc, List.cons_append, List.append_assoc,
      List.cons_append, Location.behind_append_newline, ih]
    rfl

/-- The tokens of a text behind a newline come behind those of the text in front, lower down. -/
theorem exists_segmented_lines {finish' : List Char} {segments' : List Segment}
    (first : Segmented finish segments chars) (second : Segmented finish' segments' others) :
    ∃ last whole, Segmented last whole (chars ++ '\n' :: others) ∧
      locate [] whole = locate [] segments ++
        (locate [] segments').map (·.moved (.lower (chars.count '\n' + 1))) := by
  obtain ⟨last, whole⟩ := first.append_newline second
  refine ⟨last, _, whole, ?_⟩
  have passed : segments.flatMap (fun segment => segment.gap ++ segment.lexeme) ++
      (finish ++ ['\n']) = chars ++ ['\n'] := by
    rw [← List.append_assoc, first.chars_eq]
  rw [locate_append, locate_widen, List.nil_append, passed, locate_lower]

/-! ### A semicolon on a line between two texts -/

/-- Two texts with a semicolon on a line of its own between them. -/
def joined (chars others : List Char) : List Char := chars ++ '\n' :: ';' :: '\n' :: others

/-- The front of joined texts, up to the last newline that is not of the second one. -/
theorem count_newline_front (chars : List Char) :
    (chars ++ ['\n', ';']).count '\n' + 1 = chars.count '\n' + 2 := by
  rw [List.count_append]
  rfl

theorem Location.behind_joined (chars others : List Char) :
    behind (joined chars others) = (behind others).lower (chars.count '\n' + 2) := by
  rw [← count_newline_front, ← behind_append_newline, List.append_assoc]
  rfl

/-- The tokens of joined texts are those of the one, the semicolon, and those of the other lower
down. -/
theorem exists_segmented_joined {finish' : List Char} {segments' : List Segment}
    (first : Segmented finish segments chars) (second : Segmented finish' segments' others) :
    ∃ last whole, Segmented last whole (joined chars others) ∧
      locate [] whole = locate [] segments ++ ⟨.symbol ';', .behind (chars ++ ['\n'])⟩ ::
        (locate [] segments').map (·.moved (.lower (chars.count '\n' + 2))) := by
  let segment : Segment := ⟨[], [';'], .symbol ';'⟩
  have semicolon : Segmented [] [segment] [';'] := by
    have sign : IsSign ';' := by decide
    exact .cons (.nil _) (.sign sign) (by simp) (.nil (.nil []))
  obtain ⟨_, behind, cut, tokens⟩ := exists_segmented_lines semicolon second
  obtain ⟨last, whole, cut', tokens'⟩ := exists_segmented_lines first cut
  refine ⟨last, whole, cut', ?_⟩
  have place : (Location.behind []).lower (chars.count '\n' + 1) = .behind (chars ++ ['\n']) :=
    (Location.behind_append_newline chars []).symm
  rw [tokens', tokens, List.map_append, List.map_map]
  refine congrArg _ (congrArg₂ List.cons (congrArg (LocatedToken.mk _) place) ?_)
  refine List.map_congr_left fun token _ => congrArg (LocatedToken.mk _) ?_
  exact (token.location.lower_lower _ _).trans (congrArg token.location.lower (Nat.add_comm _ _))

end OpLang
