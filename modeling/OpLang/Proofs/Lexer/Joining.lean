import OpLang.Proofs.Lexer.Layout

/-! # Lexing line by line

A lexer keeps nothing over the end of a line but the count of lines. Whatever a text ends in, a
newline and another text behind it add the tokens of that text, and these stand in the columns where
they stand in that text, as many lines lower as are in front of it.
-/

namespace OpLang

/-- The places of a text in front of a newline are those of the joined texts. -/
theorem PlacesFit.front {first second : String} (fit : PlacesFit (first ++ "\n" ++ second)) :
    PlacesFit first := by
  intro before inside
  refine fit before (inside.trans ?_)
  rw [String.toList_append, String.toList_append, List.append_assoc]
  exact List.prefix_append _ _

/-- The places of a text behind a newline are lower in the joined texts. -/
theorem PlacesFit.behind {first second : String} (fit : PlacesFit (first ++ "\n" ++ second)) :
    PlacesFit second := by
  rintro before ⟨others, whole⟩
  have inside : first.toList ++ '\n' :: before <+: (first ++ "\n" ++ second).toList := by
    refine ⟨others, ?_⟩
    rw [String.toList_append, String.toList_append, ← whole]
    simp
  have place := fit _ inside
  rw [Location.behind_append_newline] at place
  exact ⟨Nat.lt_of_le_of_lt (Nat.le_add_right _ _) place.1, place.2⟩

namespace Lexer

/-- What the lexers over two texts and over the texts with a newline in between have to do with each
other. -/
structure JoinsLines (first second : String) : Prop where
  lex : lex (first ++ "\n" ++ second) = lex first ++ lex second
  tokens : locatedTokens (first ++ "\n" ++ second) = locatedTokens first ++
    (locatedTokens second).map (·.moved (.lower (first.toList.count '\n' + 1)))
  /-- The tokens of the first text are answered as they are over this text alone. -/
  front : ∀ call < (OpLang.lex first).length,
    answer (first ++ "\n" ++ second) call = answer first call
  /-- Then come the answers over the second text, which go on with the end of input. -/
  behind : ∀ call, answer (first ++ "\n" ++ second) ((OpLang.lex first).length + call) =
    (answer second call).map (·.moved (.lower (first.toList.count '\n' + 1)))
      (.lower (first.toList.count '\n' + 1))
  /-- If the places fit into the counters, they do so over each of the texts. -/
  fits : PlacesFit (first ++ "\n" ++ second) →
    CountersFit (first ++ "\n" ++ second) ∧ CountersFit first ∧ CountersFit second

/-- A newline separates two texts for a lexer, whatever the first one ends in. -/
theorem joinsLines (first second : String) : JoinsLines first second := by
  obtain ⟨segments, finish, cut⟩ := exists_segmented first.toList
  obtain ⟨segments', finish', cut'⟩ := exists_segmented second.toList
  obtain ⟨last, whole, joint, places⟩ := exists_segmented_lines cut cut'
  have chars : (first ++ "\n" ++ second).toList = first.toList ++ '\n' :: second.toList := by simp
  rw [← chars] at joint
  have cuts : Segmentation.Cuts ⟨segments, finish⟩ first.toList := cut
  have cuts' : Segmentation.Cuts ⟨segments', finish'⟩ second.toList := cut'
  have joined : Segmentation.Cuts ⟨whole, last⟩ (first ++ "\n" ++ second).toList := joint
  have located := locatedTokens_eq joined
  rw [places, ← locatedTokens_eq cuts, ← locatedTokens_eq cuts'] at located
  have count : (lex first).length = (locate [] segments).length := by
    rw [lex, List.length_map, locatedTokens_eq cuts]
  refine ⟨?_, located, fun call inside => ?_, fun call => ?_, fun fit =>
    ⟨fit.counters, fit.front.counters, fit.behind.counters⟩⟩
  · rw [lex, located, List.map_append, List.map_map]
    rfl
  · rw [count] at inside
    rw [answer_eq joined, answer_eq cuts, places, List.getElem?_append_left inside,
      List.getElem?_eq_getElem inside]
    rfl
  · rw [answer_eq joined, answer_eq cuts', places, count,
      List.getElem?_append_right (Nat.le_add_right _ _), Nat.add_sub_cancel_left,
      List.getElem?_map, chars, Location.behind_append_newline]
    cases (locate [] segments')[call]? <;> rfl

example : lex "a # x\nb" = lex "a # x" ++ lex "b" := by decide +kernel

end Lexer

end OpLang
