import OpLang.Proofs.Parser.Results

/-! # Tokens in the order of their places

Places are read line by line. Whatever stands behind other characters of a text stands at a later
place, and no lexeme is empty, so every token of a text stands before those behind it and before the
end of the text. A parser over a text therefore only ever gets further.
-/

namespace OpLang

namespace Location

/-- A place comes before another one if it is on a line above, or further left on the same line. -/
instance : LT Location where
  lt place later := place.line < later.line ∨ place.line = later.line ∧ place.column < later.column

theorem lt_def {place later : Location} : place < later ↔
    place.line < later.line ∨ place.line = later.line ∧ place.column < later.column := Iff.rfl

instance (place later : Location) : Decidable (place < later) := decidable_of_iff _ lt_def.symm

theorem lt_trans {first second third : Location} (before : first < second)
    (behind : second < third) : first < third := by
  rw [lt_def] at *
  omega

/-- One character more leads to a later place. -/
theorem behind_lt_singleton (passed : List Char) (char : Char) :
    behind passed < behind (passed ++ [char]) := by
  rw [behind_append_singleton, lt_def]
  split
  · exact .inl (Nat.lt_succ_self _)
  · exact .inr ⟨rfl, Nat.lt_succ_self _⟩

theorem behind_lt_append (passed : List Char) {chars : List Char} (filled : chars ≠ []) :
    behind passed < behind (passed ++ chars) := by
  induction chars using List.reverseRecOn with
  | nil => contradiction
  | append_singleton chars char ih =>
    rw [← List.append_assoc]
    have last := behind_lt_singleton (passed ++ chars) char
    by_cases nothing : chars = []
    · rwa [nothing, List.append_nil] at last ⊢
    · exact lt_trans (ih nothing) last

end Location

/-- The tokens stand in the order of their places, and all of them before the end. -/
def Ordered (tokens : List LocatedToken) (finish : Location) : Prop :=
  tokens.Pairwise (·.location < ·.location) ∧ ∀ token ∈ tokens, token.location < finish

theorem Ordered.of_append {front others : List LocatedToken} {finish : Location}
    (ordered : Ordered (front ++ others) finish) : Ordered others finish :=
  ⟨(List.pairwise_append.mp ordered.1).2.1, (List.forall_mem_append.mp ordered.2).2⟩

/-- Whatever stands at the end is behind all tokens. -/
theorem Ordered.append_finish {tokens : List LocatedToken} {finish : Location}
    (ordered : Ordered tokens finish) (last : LocatedToken) (place : last.location = finish) :
    (tokens ++ [last]).Pairwise (·.location < ·.location) := by
  refine List.pairwise_append.mpr ⟨ordered.1, List.pairwise_singleton _ _, fun token member => ?_⟩
  exact List.forall_mem_singleton.mpr (place ▸ ordered.2 token member)

/-- Tokens stand behind the characters in front of all of them. -/
theorem exists_location_of_mem_locate {passed : List Char} {segments : List Segment}
    {token : LocatedToken} (member : token ∈ locate passed segments) :
    ∃ more, token.location = .behind (passed ++ more) := by
  induction segments generalizing passed with
  | nil => contradiction
  | cons segment segments ih =>
    rcases List.mem_cons.mp member with rfl | member
    · exact ⟨segment.gap, rfl⟩
    · obtain ⟨more, same⟩ := ih member
      exact ⟨_, same.trans (congrArg _ (List.append_assoc _ _ _))⟩

/-- The tokens of a text stand in its order. -/
theorem Segmented.ordered {finish chars : List Char} {segments : List Segment}
    (cut : Segmented finish segments chars) (passed : List Char) :
    Ordered (locate passed segments) (.behind (passed ++ chars)) := by
  induction cut generalizing passed with
  | nil => exact ⟨.nil, by simp [locate]⟩
  | @cons segment segments others gap lexeme _ _ ih =>
    -- The lexeme separates its own place from all places behind it.
    have later (more : List Char) : Location.behind (passed ++ segment.gap) <
        Location.behind (passed ++ (segment.gap ++ segment.lexeme) ++ more) := by
      have whole : passed ++ (segment.gap ++ segment.lexeme) ++ more =
          passed ++ segment.gap ++ (segment.lexeme ++ more) := by
        simp only [List.append_assoc]
      rw [whole]
      apply Location.behind_lt_append
      exact List.append_ne_nil_of_left_ne_nil lexeme.ne_nil more
    have whole : passed ++ (segment.gap ++ (segment.lexeme ++ others)) =
        passed ++ (segment.gap ++ segment.lexeme) ++ others := by
      simp only [List.append_assoc]
    obtain ⟨inside, below⟩ := ih (passed ++ (segment.gap ++ segment.lexeme))
    rw [whole]
    refine ⟨List.pairwise_cons.mpr ⟨?_, inside⟩, List.forall_mem_cons.mpr ⟨later others, below⟩⟩
    intro token member
    obtain ⟨more, same⟩ := exists_location_of_mem_locate member
    rw [same]
    exact later more

namespace Parser

variable {τ : Type} [TokenSource τ] {parser rest : Parser τ} {tokens : List LocatedToken}
  {finish : Location}

/-- Behind the token at hand every token stands later, and so does the end. -/
theorem Holds.location_lt {passed : List LocatedToken} (holds : parser.Holds tokens finish)
    (ordered : Ordered tokens finish) (found : parser.current ≠ .endOfInput)
    (passes : Passes parser.advance passed rest) : parser.location < rest.location := by
  cases tokens with
  | nil => exact absurd (holds.eq_nil_iff.mp rfl) found
  | cons token tokens =>
    obtain ⟨before, first⟩ := ordered
    have here : parser.location = token.location := congrArg (·.location) holds.here_cons
    rw [here]
    obtain ⟨others, whole, held⟩ := holds.advance.passes passes
    rw [List.tail_cons] at whole
    cases others with
    | nil =>
      have ended : rest.location = finish := congrArg (·.location) held.here_nil
      rw [ended]
      exact first token List.mem_cons_self
    | cons other others =>
      have next : rest.location = other.location := congrArg (·.location) held.here_cons
      rw [next]
      apply (List.pairwise_cons.mp before).1
      rw [whole]
      exact List.mem_append_right _ List.mem_cons_self

end Parser

end OpLang
