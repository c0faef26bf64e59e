import OpLang.Proofs.Grammar.Writing
import OpLang.Proofs.Number.Search

/-! # What the trees of a text are made of

A tree is made of numbers, names and operators, and grouping adds nothing to those of the clause it
groups. In a text every number has a literal, so its sign bit is clear and it is a number; every
name is a word that is not reserved; and every operator is a sign. So whatever tokens a text has,
the trees that the grammar makes of them are sound.
-/

namespace OpLang

/-- What is asked of the numbers, the names and the operators of a tree. -/
structure Demands where
  number : Binary64 → Prop
  name : String → Prop
  operator : Char → Prop

/-- Everything that a tree is made of meets the demands. -/
inductive Expr.Meets (demands : Demands) : Expr → Prop where
  | number {value : Binary64} (met : demands.number value) : Meets demands (.number value)
  | variable {name : String} (met : demands.name name) : Meets demands (.variable name)
  | binary {operator : Char} {left right : Expr} (met : demands.operator operator)
    (leftMeets : Meets demands left) (rightMeets : Meets demands right) :
    Meets demands (.binary operator left right)
  | call {callee : String} {arguments : List Expr} (met : demands.name callee)
    (inside : ∀ argument ∈ arguments, Meets demands argument) :
    Meets demands (.call callee arguments)

/-- What a table of operators asks of trees: numbers without a sign, words that are not reserved,
and operators that are signs with a positive entry. -/
def Operators.demands (operators : Operators) : Demands where
  number value := value.isNegative = false ∧ value.isNaN = false
  name := IsName
  operator char := isAscii char = true ∧ IsSign char ∧
    ∃ precedence, operators.table[char]? = some precedence ∧ 0 < precedence

/-- A tree is made of what a table of operators asks for. -/
def Expr.Sound (operators : Operators) (tree : Expr) : Prop := tree.Meets operators.demands

/-- What can be relied on about an item of some kind. -/
structure Item.Sound (settings : Settings) (kind : ItemKind) (item : Item) : Prop where
  declares : kind = .declaration ↔ ∃ prototype, item = .declaration prototype
  name : kind ≠ .expression → IsName item.prototype.name
  parameters : ∀ parameter ∈ item.prototype.parameters, IsName parameter
  distinct : settings.allowRepeatedParameters = false → item.prototype.parameters.Nodup
  body : ∀ function, item = .function function → function.body.Sound settings.operators
  anonymous : ∀ function, item = .function function →
    (function.isAnonymous = true ↔ kind = .expression)
  named : kind ≠ .expression → item.prototype.name ≠ Prototype.anonymousName
  bare : kind = .expression → item.prototype.parameters = []

/-! ### The tokens of a text -/

/-- Rounding goes no further than infinity. -/
theorem Binary64.toNat_bits_nearest_le (numerator denominator : Nat) :
    (nearest numerator denominator).bits.toNat ≤ infinityPattern := by
  have least : nearestPattern numerator denominator ≤ infinityPattern := Nat.min_le_right _ _
  have bound : infinityPattern < 2 ^ 64 := by decide
  rw [nearest, UInt64.toNat_ofNat_of_lt' (Nat.lt_of_le_of_lt least bound)]
  exact least

/-- A literal stands for a number whose sign bit is clear. -/
theorem Literal.value_unsigned (literal : List Char) :
    (value literal).isNegative = false ∧ (value literal).isNaN = false := by
  have least := Binary64.toNat_bits_nearest_le (decimal literal).coefficient
    (Nat.pow 10 (decimal literal).places)
  have below : Binary64.infinityPattern < Nat.pow 2 63 := by decide
  constructor
  · exact decide_eq_false (by rw [value_eq, Decimal.rounded]; omega)
  · refine decide_eq_false ?_
    rw [Binary64.magnitude, value_eq, Decimal.rounded, Nat.mod_eq_of_lt (by omega)]
    omega

theorem Token.ofWord_cases (word : String) :
    (ofWord word = .define ∨ ofWord word = .declare) ∨
      word ≠ "def" ∧ word ≠ "extern" ∧ ofWord word = .name word := by
  unfold ofWord
  split
  · exact .inl (.inl rfl)
  · next notDefine =>
    split
    · exact .inl (.inr rfl)
    · next notDeclare => exact .inr ⟨notDefine, notDeclare, rfl⟩

/-- The number of a text has a literal. -/
theorem Token.IsSpelled.unsigned {value : Binary64} (spelled : (Token.number value).IsSpelled) :
    value.isNegative = false ∧ value.isNaN = false := by
  obtain ⟨chars, lexeme⟩ := spelled
  generalize whole : Token.number value = token at lexeme
  cases lexeme with
  | @word first others =>
    rcases ofWord_cases (String.ofList (first :: others)) with (same | same) | ⟨_, _, same⟩
    all_goals
      rw [same] at whole
      contradiction
  | literal =>
    obtain rfl := Token.number.inj whole
    exact Literal.value_unsigned _
  | sign => contradiction

/-- The name of a text is a word, and not a reserved one. -/
theorem Token.IsSpelled.isName {name : String} (spelled : (Token.name name).IsSpelled) :
    IsName name := by
  obtain ⟨chars, lexeme⟩ := spelled
  generalize whole : Token.name name = token at lexeme
  cases lexeme with
  | @word first others alpha alphanum =>
    have letters : (first :: others).all Char.isAlphanum = true := by
      apply List.all_eq_true.mpr
      exact List.forall_mem_cons.mpr ⟨by simp [Char.isAlphanum, alpha], alphanum⟩
    rcases ofWord_cases (String.ofList (first :: others)) with
      (same | same) | ⟨notDefine, notDeclare, same⟩
    · rw [same] at whole
      contradiction
    · rw [same] at whole
      contradiction
    · rw [same] at whole
      obtain rfl := Token.name.inj whole
      refine ⟨?_, ?_, notDefine, notDeclare⟩
      · rw [String.toList_ofList]
        exact alpha
      · rw [String.toList_ofList]
        exact letters
  | literal | sign => contradiction

/-- The symbol of a text is a token by itself. -/
theorem Token.IsSpelled.isSign {char : Char} (spelled : (Token.symbol char).IsSpelled) :
    IsSign char := by
  obtain ⟨chars, lexeme⟩ := spelled
  generalize whole : Token.symbol char = token at lexeme
  cases lexeme with
  | @word first others =>
    rcases ofWord_cases (String.ofList (first :: others)) with (same | same) | ⟨_, _, same⟩
    all_goals
      rw [same] at whole
      contradiction
  | literal => contradiction
  | sign sign =>
    obtain rfl := Token.symbol.inj whole
    exact sign

/-- No word of the language spells the name of the function around a bare expression. -/
theorem IsName.ne_anonymousName {name : String} (isName : IsName name) :
    name ≠ Prototype.anonymousName := by
  rintro rfl
  exact absurd isName.begins (by decide)

namespace Grammar

variable {operators : Operators} {settings : Settings} {strength : Char → Int}

/-- Grouping adds nothing to what the operands and the operators are made of. -/
theorem meets_group {demands : Demands} {first : Expr} {links : List (Char × Expr)}
    (firstMeets : first.Meets demands)
    (linksMeet : ∀ link ∈ links, demands.operator link.1 ∧ link.2.Meets demands) :
    (group strength first links).Meets demands := by
  -- Both sides of the cut are shorter chains of the same operands.
  induction length : links.length using Nat.strongRecOn generalizing first links with
  | ind n ih =>
    cases found : cut? strength links with
    | none =>
      obtain rfl := cut?_eq_none_iff.mp found
      rw [group_nil]
      exact firstMeets
    | some cut =>
      obtain ⟨shorter, shorter'⟩ := Cut.length_lt found
      obtain ⟨rfl, loosest⟩ := loosest_of_cut? found
      obtain ⟨before, behind⟩ := List.forall_mem_append.mp linksMeet
      obtain ⟨⟨operator, operand⟩, behind⟩ := List.forall_mem_cons.mp behind
      rw [group_cut loosest]
      apply Expr.Meets.binary operator
      · exact ih _ (length ▸ shorter) firstMeets before rfl
      · exact ih _ (length ▸ shorter') operand behind rfl

/-- An effective operator of a text is what the table asks for. -/
theorem demands_of_effective {char : Char} (effective : operators.Effective char)
    (spelled : (Token.symbol char).IsSpelled) : operators.demands.operator char := by
  obtain ⟨precedence, entry⟩ := Option.isSome_iff_exists.mp effective
  obtain ⟨ascii, entered, positive⟩ := Operators.precedence?_eq_some_iff.mp entry
  exact ⟨ascii, spelled.isSign, precedence, entered, positive⟩

private theorem sound_of_spelled (operators : Operators) (strength : Char → Int) :
    (∀ primary : Primary, primary.Uses operators →
      (∀ token ∈ primary.tokens, token.IsSpelled) → (primary.tree strength).Sound operators) ∧
    ∀ chain : Chain, chain.Uses operators →
      (∀ token ∈ chain.tokens, token.IsSpelled) → (chain.tree strength).Sound operators := by
  apply nesting_induction
  case number =>
    intro value _ spelled
    exact .number (spelled (.number value) (by simp [Primary.tokens])).unsigned
  case «variable» =>
    intro name _ spelled
    exact .variable (spelled (.name name) (by simp [Primary.tokens])).isName
  case call =>
    intro callee arguments ih uses spelled
    rw [Primary.tokens] at spelled
    obtain ⟨calleeSpelled, spelled⟩ := List.forall_mem_cons.mp spelled
    obtain ⟨_, spelled⟩ := List.forall_mem_cons.mp spelled
    have insideSpelled := (List.forall_mem_append.mp spelled).1
    refine .call calleeSpelled.isName ?_
    rw [argumentTrees_eq_map]
    intro tree member
    obtain ⟨argument, present, rfl⟩ := List.mem_map.mp member
    apply ih argument present (argumentsUse_iff.mp uses argument present)
    intro token inside
    exact insideSpelled token (mem_argumentTokens_of_mem present inside)
  case group =>
    intro inner ih uses spelled
    rw [Primary.tokens] at spelled
    apply ih uses
    intro token inside
    exact spelled token (by simp [inside])
  case chain =>
    intro first links firstSound linksSound uses spelled
    obtain ⟨firstUses, linksUse⟩ := uses
    obtain ⟨firstSpelled, linksSpelled⟩ := List.forall_mem_append.mp spelled
    rw [Chain.tree, linkTrees_eq_map]
    apply meets_group (firstSound firstUses firstSpelled)
    intro tree member
    obtain ⟨link, present, rfl⟩ := List.mem_map.mp member
    obtain ⟨effective, operandUses⟩ := linksUse_iff.mp linksUse link present
    constructor
    · apply demands_of_effective effective
      exact linksSpelled _ (mem_linkTokens_of_mem present (.inl rfl))
    · apply linksSound link present operandUses
      intro token inside
      exact linksSpelled token (mem_linkTokens_of_mem present (.inr inside))

theorem Chain.sound {chain : Chain} (uses : chain.Uses operators)
    (spelled : ∀ token ∈ chain.tokens, token.IsSpelled) :
    (chain.tree strength).Sound operators :=
  (sound_of_spelled operators strength).2 chain uses spelled

theorem isName_of_spelled {prototype : Prototype}
    (spelled : ∀ token ∈ prototypeTokens prototype, token.IsSpelled) :
    IsName prototype.name ∧ ∀ parameter ∈ prototype.parameters, IsName parameter := by
  obtain ⟨nameSpelled, spelled⟩ := List.forall_mem_cons.mp spelled
  obtain ⟨_, spelled⟩ := List.forall_mem_cons.mp spelled
  constructor
  · exact nameSpelled.isName
  · intro parameter member
    apply Token.IsSpelled.isName
    exact spelled _ (List.mem_append_left _ (List.mem_map_of_mem member))

/-- The item of a clause of a text is sound. -/
theorem Clause.sound {clause : Clause} (fits : clause.Fits settings)
    (spelled : ∀ token ∈ clause.tokens, token.IsSpelled) :
    (clause.item strength).Sound settings clause.kind := by
  cases clause with
  | definition prototype body =>
    obtain ⟨allowed, uses⟩ := fits
    obtain ⟨_, spelled⟩ := List.forall_mem_cons.mp spelled
    obtain ⟨prototypeSpelled, bodySpelled⟩ := List.forall_mem_append.mp spelled
    obtain ⟨isName, areNames⟩ := isName_of_spelled prototypeSpelled
    refine ⟨by simp [kind, item], fun _ => isName, areNames, allowed, ?_, ?_,
      fun _ => isName.ne_anonymousName, by simp [kind]⟩
    · rintro _ ⟨⟩
      exact body.sound uses bodySpelled
    · rintro _ ⟨⟩
      simp [kind, Function.isAnonymous, isName.ne_anonymousName]
  | declaration prototype =>
    obtain ⟨_, spelled⟩ := List.forall_mem_cons.mp spelled
    obtain ⟨isName, areNames⟩ := isName_of_spelled spelled
    refine ⟨by simp [kind, item], fun _ => isName, areNames, fits, ?_, ?_,
      fun _ => isName.ne_anonymousName, by simp [kind]⟩
    · rintro _ ⟨⟩
    · rintro _ ⟨⟩
  | expression body =>
    refine ⟨by simp [kind, item], by simp [kind], ?_, ?_, ?_, ?_, by simp [kind], fun _ => rfl⟩
    · intro parameter member
      contradiction
    · exact fun _ => List.nodup_nil
    · rintro _ ⟨⟩
      exact body.sound fits spelled
    · rintro _ ⟨⟩
      exact iff_of_true (beq_self_eq_true _) rfl

end Grammar

end OpLang
