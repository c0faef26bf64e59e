import OpLang.Expr

/-! # Induction over trees and deciding whether they are the same

Trees are the same if they are built in the same way from the same names, operators and bit
patterns. Unlike the equality of values, which tells a number that is none from itself, this one is
equality of the type.
-/

namespace OpLang

namespace Expr

/-- Induction over trees, with every argument of a call at once. -/
theorem tree_induction {motive : Expr → Prop} (number : ∀ value, motive (.number value))
    («variable» : ∀ name, motive (.variable name))
    (binary : ∀ operator left right, motive left → motive right →
      motive (.binary operator left right))
    (call : ∀ callee arguments, (∀ argument ∈ arguments, motive argument) →
      motive (.call callee arguments)) (tree : Expr) : motive tree :=
  tree.rec number «variable» binary call (by simp)
    (fun _ _ first others => List.forall_mem_cons.mpr ⟨first, others⟩)

mutual

/-- Whether two trees are the same, numbers bit for bit. -/
def decEq : (left right : Expr) → Decidable (left = right)
  | .number value, .number other =>
    decidable_of_iff (value = other) ⟨congrArg _, fun same => by injection same⟩
  | .variable name, .variable other =>
    decidable_of_iff (name = other) ⟨congrArg _, fun same => by injection same⟩
  | .binary operator left right, .binary other left' right' =>
    have := decEq left left'
    have := decEq right right'
    decidable_of_iff (operator = other ∧ left = left' ∧ right = right')
      ⟨by rintro ⟨rfl, rfl, rfl⟩; rfl, by rintro ⟨⟩; exact ⟨rfl, rfl, rfl⟩⟩
  | .call callee arguments, .call other arguments' =>
    have := decEqArguments arguments arguments'
    decidable_of_iff (callee = other ∧ arguments = arguments')
      ⟨by rintro ⟨rfl, rfl⟩; rfl, by rintro ⟨⟩; exact ⟨rfl, rfl⟩⟩
  | .number _, .variable _ | .number _, .binary .. | .number _, .call ..
  | .variable _, .number _ | .variable _, .binary .. | .variable _, .call ..
  | .binary .., .number _ | .binary .., .variable _ | .binary .., .call ..
  | .call .., .number _ | .call .., .variable _ | .call .., .binary .. => isFalse nofun

/-- Whether two lists of trees are the same. -/
def decEqArguments : (left right : List Expr) → Decidable (left = right)
  | [], [] => isTrue rfl
  | left :: lefts, right :: rights =>
    have := decEq left right
    have := decEqArguments lefts rights
    decidable_of_iff (left = right ∧ lefts = rights)
      ⟨by rintro ⟨rfl, rfl⟩; rfl, by rintro ⟨⟩; exact ⟨rfl, rfl⟩⟩
  | [], _ :: _ | _ :: _, [] => isFalse nofun

end

instance : DecidableEq Expr := decEq

end Expr

end OpLang
