import OpLang.Proofs.Readability

/-! # Equality of values and equality of texts

In general a number may differ from itself, and two zeros may be equal with different signs. A text
has no such numbers, so on the items of texts equality of values is equality of the type; and if
their numbers are finite, both are equality of what the items print as.
-/

namespace OpLang

/-- Among numbers without a sign, equality of values is equality bit for bit. -/
theorem Binary64.equals_iff {left right : Binary64} (positive : left.isNegative = false)
    (real : left.isNaN = false) (positive' : right.isNegative = false)
    (real' : right.isNaN = false) : left.equals right = true ↔ left = right := by
  constructor
  · intro equal
    simp only [equals, Bool.and_eq_true, Bool.or_eq_true, beq_iff_eq] at equal
    rcases equal.2 with same | ⟨zero, zero'⟩
    · exact same
    · obtain ⟨bits⟩ := left
      obtain ⟨bits'⟩ := right
      have patterns := (toNat_bits_eq positive).trans (zero.trans zero'.symm)
      exact congrArg mk (UInt64.toNat.inj (patterns.trans (toNat_bits_eq positive').symm))
  · rintro rfl
    simp [equals, real]

namespace Expr

variable {operators operators' : Operators}

theorem argumentsEqual_iff {lefts rights : List Expr}
    (each : ∀ left ∈ lefts, ∀ right ∈ rights, (left.equals right = true ↔ left = right)) :
    argumentsEqual lefts rights = true ↔ lefts = rights := by
  induction lefts generalizing rights with
  | nil => cases rights <;> simp [argumentsEqual]
  | cons left lefts ih =>
    cases rights with
    | nil => simp [argumentsEqual]
    | cons right rights =>
      have first := each left (by simp) right (by simp)
      have others : argumentsEqual lefts rights = true ↔ lefts = rights :=
        ih fun left member right member' => each left (by simp [member]) right (by simp [member'])
      simp [argumentsEqual, first, others]

/-- Sound trees are equal by the values of their numbers only if they are the same. -/
theorem equals_iff {left right : Expr} (sound : left.Sound operators)
    (sound' : right.Sound operators') : left.equals right = true ↔ left = right := by
  induction sound generalizing right with
  | number met =>
    cases sound' with
    | number met' => simp [equals, Binary64.equals_iff met.1 met.2 met'.1 met'.2]
    | «variable» | binary | call => simp [equals]
  | «variable» =>
    cases sound' with
    | «variable» => simp [equals]
    | number | binary | call => simp [equals]
  | binary _ _ _ leftIh rightIh =>
    cases sound' with
    | binary _ left' right' => simp [equals, leftIh left', rightIh right', and_assoc]
    | number | «variable» | call => simp [equals]
  | call _ _ ih =>
    cases sound' with
    | call _ inside' =>
      have each := argumentsEqual_iff fun left member right member' =>
        ih left member (inside' right member')
      simp [equals, each]
    | number | «variable» | binary => simp [equals]

end Expr

theorem Item.equals_iff {settings settings' : Settings} {kind kind' : ItemKind}
    {left right : Item} (sound : left.Sound settings kind) (sound' : right.Sound settings' kind') :
    left.equals right = true ↔ left = right := by
  cases left with
  | declaration prototype =>
    cases right with
    | declaration prototype' => simp [equals]
    | function => simp [equals]
  | function defined =>
    cases right with
    | declaration => simp [equals]
    | function defined' =>
      have bodies := Expr.equals_iff (sound.body _ rfl) (sound'.body _ rfl)
      obtain ⟨prototype, body⟩ := defined
      obtain ⟨prototype', body'⟩ := defined'
      simp [equals, Function.equals, bodies]

/-- Items that texts are read as, under whatever settings, have the same text exactly if they are
equal, provided that their numbers are finite; and they are equal only if they are the same. -/
theorem Item.text_eq_iff_equals {settings settings' : Settings} {text text' : String}
    {items items' : List Item} {item item' : Item}
    (accepted : parseProgram settings text = .ok items)
    (accepted' : parseProgram settings' text' = .ok items')
    (member : item ∈ items) (member' : item' ∈ items')
    (finite : item.AllFinite) (finite' : item'.AllFinite) :
    (item.text = item'.text ↔ item.equals item' = true) ∧
      (item.equals item' = true ↔ item = item') := by
  obtain ⟨kind, handed⟩ := handed_of_parseProgram accepted item member
  obtain ⟨kind', handed'⟩ := handed_of_parseProgram accepted' item' member'
  have same : item.equals item' = true ↔ item = item' := equals_iff handed.sound handed'.sound
  have readable := handed.sound.readable finite
  have readable' := handed'.sound.readable finite'
  refine ⟨?_, same⟩
  constructor
  · intro texts
    exact same.mpr (eq_of_text_eq readable readable' texts)
  · intro equal
    rw [same.mp equal]

open Grammar

/-- Where the difference binds tighter than the product, the same text is another item, and that can
be told from what it prints as. -/
theorem Item.text_eq_iff_equals_of_precedences :
    let tight : Settings := ⟨Operators.empty.installAll [('-', 40), ('*', 20)], false⟩
    let product : Item := .function ⟨⟨"f", ["x"]⟩, .binary '-' (.number (Literal.value ['1', '.']))
      (.binary '*' (.variable "x") (.variable "y"))⟩
    let difference : Item := .function ⟨⟨"f", ["x"]⟩, .binary '*'
      (.binary '-' (.number (Literal.value ['1', '.'])) (.variable "x")) (.variable "y")⟩
    parseProgram .standard "def f(x) 1.-x*y" = .ok [product] ∧
      parseProgram tight "def f ( x ) 1.0 - x * y" = .ok [difference] ∧
      product.AllFinite ∧ difference.AllFinite ∧
      (product.text = difference.text ↔ product.equals difference = true) ∧
      product.text ≠ difference.text := by
  intro tight product difference
  let one : Binary64 := Literal.value ['1', '.']
  let chain : Chain := ⟨.number one, [('-', .variable "x"), ('*', .variable "y")]⟩
  have read (settings : Settings) (text : String) (tree : Expr)
      (spared : settings.operators.Spares ['(', ')', ',', ';'])
      (effective : settings.operators.Effective '-' ∧ settings.operators.Effective '*')
      (spells : Spells settings.operators.strength tree chain)
      (tokens : lex text = (Clause.definition ⟨"f", ["x"]⟩ chain).tokens) :
      parseProgram settings text = .ok [.function ⟨⟨"f", ["x"]⟩, tree⟩] := by
    obtain ⟨minus, times⟩ := effective
    rw [← spells.tree_eq]
    apply parseProgram_of_clause spared _ tokens
    exact ⟨fun _ => by decide, trivial, minus, trivial, times, trivial, trivial⟩
  have named (strength : Char → Int) (name : String) :
      Spells strength (.variable name) ⟨.variable name, []⟩ := .variable name
  have number (strength : Char → Int) : Spells strength (.number one) ⟨.number one, []⟩ := .number _
  have accepted : parseProgram .standard "def f(x) 1.-x*y" = .ok [product] := by
    refine read _ _ _ (by decide +kernel) (by decide +kernel) ?_ (by decide +kernel)
    refine .binary (number _) (.binary (named _ "x") (named _ "y") nofun nofun) nofun ?_
    rintro _ ⟨⟩ looser
    exact absurd looser (by decide +kernel)
  have accepted' : parseProgram tight "def f ( x ) 1.0 - x * y" = .ok [difference] := by
    refine read _ _ _ (by decide +kernel) (by decide +kernel) ?_ (by decide +kernel)
    refine .binary (.binary (number _) (named _ "x") nofun nofun) (named _ "y") ?_ nofun
    rintro _ ⟨⟩ looser
    exact absurd looser (by decide +kernel)
  have finite : one.isFinite = true := by decide +kernel
  have allFinite : product.AllFinite :=
    .binary trivial (.number finite) (.binary trivial (.variable trivial) (.variable trivial))
  have allFinite' : difference.AllFinite :=
    .binary trivial (.binary trivial (.number finite) (.variable trivial)) (.variable trivial)
  obtain ⟨texts, items⟩ := Item.text_eq_iff_equals accepted accepted' (by simp) (by simp)
    allFinite allFinite'
  refine ⟨accepted, accepted', allFinite, allFinite', texts, ?_⟩
  intro same
  have equal := items.mp (texts.mp same)
  simp [product, difference] at equal

end OpLang
