import Mathlib.Algebra.Order.Field.Basic
import Mathlib.Data.List.Induction
import Mathlib.Data.Rat.Cast.Order
import OpLang.Cli.Suggestion

/-! # What is suggested

The suggestion is the candidate that is most like a name, and the first of those that are equally
like it. Nothing is suggested exactly if no candidate is alike enough.
-/

namespace OpLang.Suggestion

/-- The number that a fraction stands for. -/
def Likeness.share (likeness : Likeness) : ℚ := likeness.numerator / likeness.denominator

/-- The first of the candidates that are most like a name, and like it enough. -/
structure Closest (name : List Char) (candidates : List String) (best : String) : Prop where
  enough : 4 / 5 < (likeness name best.toList).share
  first : ∃ before behind, candidates = before ++ best :: behind ∧
    (∀ other ∈ before,
      (likeness name other.toList).share < (likeness name best.toList).share) ∧
    ∀ other ∈ behind, (likeness name other.toList).share ≤ (likeness name best.toList).share

variable {name : List Char} {candidates : List String} {best : String}

/-! ### Likeness -/

theorem Likeness.below_iff {least greatest : Likeness} (proper : 0 < least.denominator)
    (proper' : 0 < greatest.denominator) :
    least.below greatest = true ↔ least.share < greatest.share := by
  have positive : (0 : ℚ) < least.denominator := Nat.cast_pos.mpr proper
  have positive' : (0 : ℚ) < greatest.denominator := Nat.cast_pos.mpr proper'
  rw [share, share, div_lt_div_iff₀ positive positive', below, decide_eq_true_iff]
  exact_mod_cast Iff.rfl

theorem sharedCharacters_proper (left right : List Char) :
    0 < (sharedCharacters left right).denominator := by
  unfold sharedCharacters
  split
  · split <;> decide
  · next filled =>
    dsimp only
    split
    · decide
    · next found =>
      have lengths : 0 < left.length ∧ 0 < right.length := by
        simpa [List.length_pos_iff] using filled
      exact Nat.mul_pos (Nat.mul_pos (Nat.mul_pos (by decide) lengths.1) lengths.2)
        (Nat.pos_of_ne_zero found)

theorem likeness_proper (left right : List Char) : 0 < (likeness left right).denominator :=
  Nat.mul_pos (by decide) (sharedCharacters_proper left right)

/-- Likeness lies between zero and one. -/
theorem share_likeness_bounds (left right : List Char) :
    0 ≤ (likeness left right).share ∧ (likeness left right).share ≤ 1 := by
  have positive : (0 : ℚ) < (likeness left right).denominator :=
    Nat.cast_pos.mpr (likeness_proper left right)
  constructor
  · exact div_nonneg (Nat.cast_nonneg _) positive.le
  · apply (div_le_one positive).mpr
    exact Nat.cast_le.mpr (Nat.min_le_right _ _)

/-! ### The search for the closest candidate -/

/-- What is known behind some candidates: the best of them, or that none is like the name enough. -/
inductive Searched (name : List Char) (candidates : List String) :
    Option String × Likeness → Prop where
  | nothing (low : ∀ other ∈ candidates, (likeness name other.toList).share ≤ 4 / 5) :
    Searched name candidates (none, ⟨4, 5⟩)
  | found {best : String} (closest : Closest name candidates best) :
    Searched name candidates (some best, likeness name best.toList)

theorem Searched.better {best? : Option String × Likeness}
    (searched : Searched name candidates best?) (candidate : String) :
    Searched name (candidates ++ [candidate]) (better name best? candidate) := by
  have proper (other : String) := likeness_proper name other.toList
  unfold Suggestion.better
  dsimp only
  cases searched with
  | nothing low =>
    have bound : Likeness.share ⟨4, 5⟩ = 4 / 5 := by norm_num [Likeness.share]
    have above_iff := Likeness.below_iff (show 0 < (⟨4, 5⟩ : Likeness).denominator by decide) (proper candidate)
    rw [bound] at above_iff
    split
    · next above =>
      have enough := above_iff.mp above
      have lower (other : String) (member : other ∈ candidates) :=
        (low other member).trans_lt enough
      exact .found ⟨enough, candidates, [], rfl, lower, nofun⟩
    · next below =>
      have last := not_lt.mp (mt above_iff.mpr below)
      exact .nothing (List.forall_mem_append.mpr ⟨low, List.forall_mem_singleton.mpr last⟩)
  | @found best closest =>
    obtain ⟨enough, before, behind, rfl, lower, notHigher⟩ := closest
    have above_iff := Likeness.below_iff (proper best) (proper candidate)
    split
    · next above =>
      have higher := above_iff.mp above
      refine .found ⟨enough.trans higher, before ++ best :: behind, [], rfl, ?_, nofun⟩
      intro other member
      rcases List.mem_append.mp member with earlier | later
      · exact (lower other earlier).trans higher
      · rcases List.mem_cons.mp later with rfl | later
        · exact higher
        · exact (notHigher other later).trans_lt higher
    · next below =>
      have last := not_lt.mp (mt above_iff.mpr below)
      refine .found ⟨enough, before, behind ++ [candidate], ?_, lower, ?_⟩
      · rw [List.append_assoc, List.cons_append]
      · exact List.forall_mem_append.mpr ⟨notHigher, List.forall_mem_singleton.mpr last⟩

theorem searched (name : List Char) (candidates : List String) :
    Searched name candidates (candidates.foldl (better name) (none, ⟨4, 5⟩)) := by
  induction candidates using List.reverseRecOn with
  | nil => exact .nothing nofun
  | append_singleton candidates candidate ih =>
    rw [List.foldl_append]
    exact ih.better candidate

/-! ### The suggestion -/

theorem Closest.mem (closest : Closest name candidates best) : best ∈ candidates := by
  obtain ⟨_, before, behind, rfl, _⟩ := closest
  simp

/-- No two candidates are the first of the most alike. -/
theorem Closest.unique {best' : String} (closest : Closest name candidates best)
    (closest' : Closest name candidates best') : best = best' := by
  obtain ⟨_, before, behind, cut, lower, notHigher⟩ := closest
  obtain ⟨_, before', behind', cut', lower', notHigher'⟩ := closest'
  rw [cut] at cut'
  rcases List.append_eq_append_iff.mp cut' with ⟨between, rfl, same⟩ | ⟨between, rfl, same⟩
  · cases between with
    | nil => exact (List.cons.inj same).1
    | cons first between =>
      obtain ⟨rfl, rfl⟩ := List.cons.inj same
      exact absurd (lower' best (by simp)) (notHigher best' (by simp)).not_gt
  · cases between with
    | nil => exact (List.cons.inj same).1.symm
    | cons first between =>
      obtain ⟨rfl, rfl⟩ := List.cons.inj same
      exact absurd (lower best' (by simp)) (notHigher' best (by simp)).not_gt

/-- What is suggested is the first of the candidates that are most like the name, if these are like
it enough. -/
theorem closest?_eq_some_iff :
    closest? name candidates = some best ↔ Closest name candidates best := by
  have searched := searched name candidates
  rw [closest?]
  generalize candidates.foldl (better name) (none, ⟨4, 5⟩) = state at searched
  cases searched with
  | nothing low =>
    constructor
    · nofun
    · intro closest
      exact absurd closest.enough (low best closest.mem).not_gt
  | @found other closest =>
    constructor
    · rintro ⟨⟩
      exact closest
    · intro closest'
      exact congrArg some (closest.unique closest')

/-- Nothing is suggested exactly if no candidate is like the name enough. -/
theorem closest?_eq_none_iff : closest? name candidates = none ↔
    ∀ candidate ∈ candidates, (likeness name candidate.toList).share ≤ 4 / 5 := by
  have searched := searched name candidates
  rw [closest?]
  generalize candidates.foldl (better name) (none, ⟨4, 5⟩) = state at searched
  cases searched with
  | nothing low => exact ⟨fun _ => low, fun _ => rfl⟩
  | @found best closest =>
    constructor
    · nofun
    · intro low
      exact absurd closest.enough (low best closest.mem).not_gt

end OpLang.Suggestion
