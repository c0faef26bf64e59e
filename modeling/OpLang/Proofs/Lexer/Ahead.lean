import OpLang.Lexer
import OpLang.Proofs.Source.Ahead

/-! # The characters ahead of a lexer

A lexer stands for the characters that its source hands out and for the one it looks at. Passing
characters by a test takes the longest beginning of them that satisfies it, so that whatever a lexer
does is a matter of lists.
-/

namespace OpLang

namespace Lexer

variable {σ : Type} [CharSource σ] {lexer : Lexer σ} {char : Char} {chars : List Char}

/-- The characters that a lexer has not passed yet, the one looked at first. -/
def ahead (lexer : Lexer σ) : List Char :=
  match lexer.lookahead with
  | some char => char :: CharSource.ahead lexer.source
  | none => []

@[simp] theorem ahead_mark (lexer : Lexer σ) : lexer.mark.ahead = lexer.ahead := rfl

/-- A fresh lexer looks at a blank in front of its source. -/
theorem ahead_ofSource (source : σ) : (ofSource source).ahead = ' ' :: CharSource.ahead source :=
  rfl

theorem ahead_of_none (looks : lexer.lookahead = none) : lexer.ahead = [] := by
  rw [ahead, looks]

theorem ahead_of_some (looks : lexer.lookahead = some char) :
    lexer.ahead = char :: lexer.bump.ahead := by
  rw [ahead, looks, ahead, lookahead_bump, source_bump]
  cases answer : (CharSource.next lexer.source).1 with
  | none => rw [CharSource.ahead_of_none answer]
  | some found => rw [CharSource.ahead_of_some answer]

theorem ahead_eq_nil_iff : lexer.ahead = [] ↔ lexer.lookahead = none := by
  cases looks : lexer.lookahead with
  | none => simp [ahead_of_none looks]
  | some char => simp [ahead_of_some looks]

theorem ahead_eq_cons_iff :
    lexer.ahead = char :: chars ↔ lexer.lookahead = some char ∧ lexer.bump.ahead = chars := by
  cases looks : lexer.lookahead with
  | none => simp [ahead_of_none looks]
  | some found => simp [ahead_of_some looks]

theorem ahead_skipWhile (test : Char → Bool) (lexer : Lexer σ) :
    (lexer.skipWhile test).ahead = lexer.ahead.dropWhile test := by
  fun_induction skipWhile test lexer with
  | case1 lexer char looks passes ih =>
    rw [ih, ahead_of_some looks, List.dropWhile_cons_of_pos passes]
  | case2 lexer char looks fails =>
    rw [ahead_of_some looks, List.dropWhile_cons_of_neg fails]
  | case3 lexer looks => rw [ahead_of_none looks, List.dropWhile_nil]

theorem toList_takeWhile (test : Char → Bool) (taken : Array Char) (lexer : Lexer σ) :
    (lexer.takeWhile test taken).1.toList = taken.toList ++ lexer.ahead.takeWhile test := by
  fun_induction takeWhile test taken lexer with
  | case1 taken lexer char looks passes ih =>
    rw [ih, ahead_of_some looks, List.takeWhile_cons_of_pos passes, Array.toList_push,
      List.append_assoc, List.singleton_append]
  | case2 taken lexer char looks fails =>
    rw [ahead_of_some looks, List.takeWhile_cons_of_neg fails, List.append_nil]
  | case3 taken lexer looks => rw [ahead_of_none looks, List.takeWhile_nil, List.append_nil]

theorem ahead_takeWhile (test : Char → Bool) (taken : Array Char) (lexer : Lexer σ) :
    (lexer.takeWhile test taken).2.ahead = lexer.ahead.dropWhile test := by
  fun_induction takeWhile test taken lexer with
  | case1 taken lexer char looks passes ih =>
    rw [ih, ahead_of_some looks, List.dropWhile_cons_of_pos passes]
  | case2 taken lexer char looks fails =>
    rw [ahead_of_some looks, List.dropWhile_cons_of_neg fails]
  | case3 taken lexer looks => rw [ahead_of_none looks, List.dropWhile_nil]

end Lexer

end OpLang
