import OpLang.Proofs.Lexer.Drawing
import OpLang.Proofs.Lexer.Relocation

/-! # What is left behind a lexeme

A text that is cut may be taken apart behind any of its lexemes: the segments behind it cut what is
left of the text. They have the same tokens as before, and each stands where it would stand if what
is left began at the place where it is.
-/

namespace OpLang

/-- Where a place is found if some characters are put in front of its text. -/
def Location.past (passed : List Char) (place : Location) : Location where
  line := place.line + passed.count '\n'
  column := if place.line = 1 then place.column + (passed.reverse.takeWhile (· != '\n')).length
    else place.column

/-- Only the first line is moved to the right. -/
theorem Location.behind_append (passed chars : List Char) :
    behind (passed ++ chars) = (behind chars).past passed := by
  induction chars using List.reverseRecOn with
  | nil =>
    rw [List.append_nil, behind_nil]
    simp only [behind, past, first, if_true, Nat.add_comm]
  | append_singleton chars char ih =>
    rw [← List.append_assoc, behind_append_singleton, ih, behind_append_singleton]
    have line : 0 < (behind chars).line := Nat.succ_pos _
    by_cases newline : char = '\n'
    · simp only [past, newline, if_true, mk.injEq]
      constructor
      · omega
      · rw [if_neg (by omega)]
    · simp only [past, newline, if_false, mk.injEq, true_and]
      split <;> omega

/-- Behind some characters tokens stand where they would stand in a text of their own, but moved. -/
theorem locate_past (passed before : List Char) (segments : List Segment) :
    locate (passed ++ before) segments =
      (locate before segments).map (·.moved (.past passed)) := by
  induction segments generalizing before with
  | nil => rfl
  | cons segment segments ih =>
    rw [locate, locate, List.map_cons, List.append_assoc, List.append_assoc,
      Location.behind_append, ih]
    rfl

variable {finish chars : List Char} {segments : List Segment}

theorem length_locate (passed : List Char) (segments : List Segment) :
    (locate passed segments).length = segments.length := by
  rw [← List.length_map (·.token), map_token_locate, List.length_map]

/-- A text that is cut is taken apart between two segments. -/
theorem Segmented.split {front others : List Segment}
    (cut : Segmented finish (front ++ others) chars) :
    ∃ rest, chars = (front.flatMap fun segment => segment.gap ++ segment.lexeme) ++ rest ∧
      Segmented finish others rest := by
  induction front generalizing chars with
  | nil => exact ⟨chars, rfl, cut⟩
  | cons segment front ih =>
    cases cut with
    | cons _ _ _ behind =>
      obtain ⟨rest, rfl, left⟩ := ih behind
      exact ⟨rest, by simp only [List.flatMap_cons, List.append_assoc], left⟩

/-- What is left behind a lexeme, which is counted from zero, or behind the end of the text. -/
structure Segmentation.Leaves (cut : Segmentation) (index : Nat) (passed rest : List Char) :
    Prop where
  reach : passed.length = cut.reach index
  cuts : ∃ finish, Segmented finish (cut.segments.drop (index + 1)) rest
  places : (locate [] cut.segments).drop (index + 1) =
    (locate [] (cut.segments.drop (index + 1))).map (·.moved (.past passed))

theorem Segmentation.exists_leaves {cut : Segmentation} (cuts : cut.Cuts chars) (index : Nat) :
    ∃ passed rest, chars = passed ++ rest ∧ cut.Leaves index passed rest := by
  by_cases inside : index < cut.segments.length
  · have whole := List.take_append_drop (index + 1) cut.segments
    have parts : Segmented cut.finish
        (cut.segments.take (index + 1) ++ cut.segments.drop (index + 1)) chars := by
      rw [whole]
      exact cuts
    obtain ⟨rest, split, left⟩ := parts.split
    refine ⟨_, rest, split, (if_pos inside).symm, ⟨_, left⟩, ?_⟩
    have front : (locate [] (cut.segments.take (index + 1))).length = index + 1 := by
      rw [length_locate, List.length_take_of_le inside]
    conv => lhs; rw [← whole, locate_append]
    rw [List.drop_left' front, ← locate_past, List.nil_append, List.append_nil]
  · have past : cut.segments.drop (index + 1) = [] := List.drop_eq_nil_of_le (by omega)
    have none : (locate [] cut.segments).drop (index + 1) = [] := by
      apply List.drop_eq_nil_of_le
      rw [length_locate]
      omega
    refine ⟨chars, [], (List.append_nil _).symm, ?_, ⟨[], ?_⟩, ?_⟩
    · rw [reach_of_length_le (Nat.not_lt.mp inside)]
      exact congrArg List.length cuts.chars_eq.symm
    · rw [past]
      exact .nil (.nil [])
    · rw [none, past]
      rfl

end OpLang
