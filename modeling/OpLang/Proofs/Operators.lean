import Std.Data.TreeMap.Lemmas
import OpLang.Settings

/-! # Effective operators

An entry of the table matters only if it makes its character an operator. Such a character is
effective, and its strength is its precedence as an integer, so strengths can be compared by linear
arithmetic. A table spares the characters that it does not make operators.
-/

namespace OpLang.Operators

/-- The table makes the character an operator. -/
def Effective (operators : Operators) (char : Char) : Prop :=
  (operators.precedence? char).isSome = true

instance (operators : Operators) (char : Char) : Decidable (operators.Effective char) :=
  inferInstanceAs (Decidable (_ = true))

/-- How tightly an operator binds; characters that are no operators bind nothing. -/
def strength (operators : Operators) (char : Char) : Int :=
  ((operators.precedence? char).map Int32.toInt).getD 0

/-- None of the characters is made an operator. -/
def Spares (operators : Operators) (chars : List Char) : Prop :=
  ∀ char ∈ chars, operators.precedence? char = none

instance (operators : Operators) (chars : List Char) : Decidable (operators.Spares chars) :=
  decidable_of_iff (chars.all fun char => (operators.precedence? char).isNone) (by simp [Spares])

/-- Two tables make operators of the same among these characters and order them in the same way. -/
structure SameOrder (chars : Char → Prop) (operators others : Operators) : Prop where
  effective : ∀ char, chars char → (operators.Effective char ↔ others.Effective char)
  order : ∀ left right, chars left → chars right → operators.Effective left →
    operators.Effective right → (operators.strength left < operators.strength right ↔
      others.strength left < others.strength right)

/-- Whether two tables put two characters in the same order, if the first table makes operators of
both. -/
def agrees (operators others : Operators) (left right : Char) : Bool :=
  decide (operators.Effective left → operators.Effective right →
    (operators.strength left < operators.strength right ↔
      others.strength left < others.strength right))

/-- Tables are compared on a list of characters by going through it. -/
instance (chars : List Char) (operators others : Operators) :
    Decidable (operators.SameOrder (· ∈ chars) others) :=
  decidable_of_iff ((chars.all fun char =>
      decide (operators.Effective char ↔ others.Effective char)) = true ∧
        (chars.all fun left => chars.all (agrees operators others left)) = true) <| by
    simp only [List.all_eq_true, decide_eq_true_eq, agrees]
    exact ⟨fun ⟨effective, order⟩ => ⟨effective, fun left right leftMember rightMember =>
        order left leftMember right rightMember⟩,
      fun ⟨effective, order⟩ => ⟨effective, fun left leftMember right rightMember =>
        order left right leftMember rightMember⟩⟩

theorem SameOrder.refl (chars : Char → Prop) (operators : Operators) :
    operators.SameOrder chars operators :=
  ⟨fun _ _ => Iff.rfl, fun _ _ _ _ _ _ => Iff.rfl⟩

theorem SameOrder.mono {chars more : Char → Prop} {operators others : Operators}
    (same : operators.SameOrder more others) (fewer : ∀ char, chars char → more char) :
    operators.SameOrder chars others where
  effective char member := same.effective char (fewer char member)
  order left right leftMember rightMember :=
    same.order left right (fewer left leftMember) (fewer right rightMember)

theorem SameOrder.of_precedence?_eq {chars : Char → Prop} {operators others : Operators}
    (same : ∀ char, chars char → others.precedence? char = operators.precedence? char) :
    operators.SameOrder chars others where
  effective char member := by rw [Effective, Effective, same char member]
  order left right leftMember rightMember _ _ := by
    simp only [strength, same left leftMember, same right rightMember]

variable {operators : Operators} {char : Char} {precedence : Int32}

theorem strength_eq (entry : operators.precedence? char = some precedence) :
    operators.strength char = precedence.toInt := by
  simp only [strength, entry, Option.map_some, Option.getD_some]

theorem effective_of_entry (entry : operators.precedence? char = some precedence) :
    operators.Effective char := by
  simp only [Effective, entry, Option.isSome_some]

/-- Only positive entries of ASCII characters count. -/
theorem precedence?_eq_some_iff : operators.precedence? char = some precedence ↔
    isAscii char = true ∧ operators.table[char]? = some precedence ∧ 0 < precedence := by
  unfold precedence?
  split
  · next ascii => simp [ascii, Option.filter_eq_some_iff]
  · next wide => simp [wide]

theorem Effective.ascii (effective : operators.Effective char) : isAscii char = true := by
  obtain ⟨_, entry⟩ := Option.isSome_iff_exists.mp effective
  exact (precedence?_eq_some_iff.mp entry).1

/-- Other characters than those with an ASCII code are no operators anyway. -/
theorem SameOrder.of_ascii {chars : Char → Prop} {others : Operators}
    (same : operators.SameOrder (fun char => isAscii char = true ∧ chars char) others) :
    operators.SameOrder chars others where
  effective char member :=
    ⟨fun effective => (same.effective char ⟨effective.ascii, member⟩).mp effective,
      fun effective => (same.effective char ⟨effective.ascii, member⟩).mpr effective⟩
  order left right leftMember rightMember leftEffective rightEffective :=
    same.order left right ⟨leftEffective.ascii, leftMember⟩ ⟨rightEffective.ascii, rightMember⟩
      leftEffective rightEffective

theorem precedence?_install_of_ne {found : Char} (other : found ≠ char) :
    (operators.install char precedence).precedence? found = operators.precedence? found := by
  have kept : (operators.install char precedence).table[found]? = operators.table[found]? := by
    rw [install, Std.TreeMap.getElem?_insert, if_neg]
    exact fun same => other (Std.LawfulEqOrd.eq_of_compare same).symm
  rw [Operators.precedence?, Operators.precedence?, kept]

/-- An entry that is not positive makes no operator. -/
theorem precedence?_install_of_nonpositive (nonpositive : precedence ≤ 0) :
    (operators.install char precedence).precedence? char = none := by
  apply Option.eq_none_iff_forall_ne_some.mpr
  intro found entry
  obtain ⟨_, entered, positive⟩ := precedence?_eq_some_iff.mp entry
  rw [install, Std.TreeMap.getElem?_insert_self] at entered
  obtain rfl := Option.some.inj entered
  exact Int32.not_lt.mpr nonpositive positive

theorem Effective.strength_pos (effective : operators.Effective char) :
    0 < operators.strength char := by
  obtain ⟨precedence, entry⟩ := Option.isSome_iff_exists.mp effective
  obtain ⟨_, _, positive⟩ := precedence?_eq_some_iff.mp entry
  rw [strength_eq entry]
  exact Int32.lt_iff_toInt_lt.mp positive

theorem Spares.not_effective {chars : List Char} (spares : operators.Spares chars)
    (member : char ∈ chars) : ¬ operators.Effective char := by
  simp only [Effective, spares char member, Option.isSome_none, Bool.false_eq_true,
    not_false_eq_true]

end OpLang.Operators
