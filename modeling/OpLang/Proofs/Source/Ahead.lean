import OpLang.Source.Basic
import OpLang.Source.Tokens

/-! # What sources hand out

A source of characters stands for what it hands out before its first `none`, and a source of tokens
for what it hands out before its first end of input.
-/

namespace OpLang

namespace CharSource

variable {σ : Type} [CharSource σ]

/-- The characters that a source hands out before it has no more to give. -/
def ahead (source : σ) : List Char :=
  match _ : (next source).1 with
  | some char => char :: ahead (next source).2
  | none => []
termination_by remaining source
decreasing_by exact remaining_next_lt ‹_›

theorem ahead_of_none {source : σ} (answer : (next source).1 = none) : ahead source = [] := by
  rw [ahead]
  split <;> simp_all

theorem ahead_of_some {source : σ} {char : Char} (answer : (next source).1 = some char) :
    ahead source = char :: ahead (next source).2 := by
  conv => lhs; rw [ahead]
  split <;> simp_all

@[simp] theorem ahead_list (chars : List Char) : ahead chars = chars := by
  induction chars with
  | nil => exact ahead_of_none rfl
  | cons char chars ih =>
    have answer : (next (char :: chars)).1 = some char := rfl
    rw [ahead_of_some answer]
    exact congrArg (char :: ·) ih

end CharSource

namespace TokenSource

variable {τ : Type} [TokenSource τ]

/-- The tokens that a source hands out before the end of input. -/
def ahead (tokens : τ) : List LocatedToken :=
  if (next tokens).1.token = .endOfInput then []
  else (next tokens).1 :: ahead (next tokens).2
termination_by remaining tokens
decreasing_by exact remaining_next_lt ‹_›

theorem ahead_of_finished {tokens : τ} (finished : (next tokens).1.token = .endOfInput) :
    ahead tokens = [] := by
  rw [ahead, if_pos finished]

theorem ahead_of_found {tokens : τ} (found : (next tokens).1.token ≠ .endOfInput) :
    ahead tokens = (next tokens).1 :: ahead (next tokens).2 := by
  conv => lhs; rw [ahead, if_neg found]

/-- What is ahead follows from the next answer. -/
theorem ahead_congr {tokens others : τ} (same : next tokens = next others) :
    ahead tokens = ahead others := by
  by_cases finished : (next others).1.token = .endOfInput
  · rw [ahead_of_finished finished, ahead_of_finished (same.symm ▸ finished)]
  · have found : (next tokens).1.token ≠ .endOfInput := same.symm ▸ finished
    rw [ahead_of_found finished, ahead_of_found found, same]

theorem toList_drain (read : Array LocatedToken) (tokens : τ) :
    (drain read tokens).1.toList = read.toList ++ ahead tokens := by
  fun_induction drain read tokens with
  | case1 read tokens finished => rw [ahead_of_finished finished, List.append_nil]
  | case2 read tokens found ih =>
    rw [ih, ahead_of_found found, Array.toList_push, List.append_assoc, List.singleton_append]

end TokenSource

end OpLang
