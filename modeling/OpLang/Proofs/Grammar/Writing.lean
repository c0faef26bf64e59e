import OpLang.Proofs.Expr
import OpLang.Proofs.Grammar.Program
import OpLang.Proofs.Lexer.Lexemes

/-! # Writing items

An item is written as a clause. Parentheses stand around an operand where the grouping would take
it apart otherwise: on the left of an operator around a looser one, on its right also around one
that is as loose. Anywhere else they may stand as well. What is written in one of these ways has the
tree that was to be written, because the operator at the root is the rightmost of the loosest
outside parentheses.
-/

namespace OpLang

/-- A word that is not reserved. -/
structure IsName (name : String) : Prop where
  begins : name.toList.head?.any Char.isAlpha = true
  word : name.toList.all Char.isAlphanum = true
  notDefine : name ≠ "def"
  notDeclare : name ≠ "extern"

instance (name : String) : Decidable (IsName name) :=
  decidable_of_iff (name.toList.head?.any Char.isAlpha = true ∧
    name.toList.all Char.isAlphanum = true ∧ name ≠ "def" ∧ name ≠ "extern")
    ⟨fun ⟨begins, word, define, declare⟩ => ⟨begins, word, define, declare⟩,
      fun isName => ⟨isName.begins, isName.word, isName.notDefine, isName.notDeclare⟩⟩

/-- A literal that spells a number in the usual way: digits with at most one point among them. -/
structure IsPlain (literal : List Char) : Prop where
  parts : literal.all Literal.isPart = true
  points : literal.count '.' ≤ 1
  digit : literal.any Char.isDigit = true

/-- The prototype is one of the language: of names, which are distinct if they have to be. -/
structure Prototype.WellFormed (settings : Settings) (prototype : Prototype) : Prop where
  name : IsName prototype.name
  parameters : ∀ parameter ∈ prototype.parameters, IsName parameter
  allowed : Grammar.AllowsPrototype settings prototype

namespace Expr

/-- The operator at the root of a tree. -/
def root? : Expr → Option Char
  | binary operator _ _ => some operator
  | number _ | «variable» _ | call _ _ => none

mutual

/-- The tree is one of the language: numbers have a plain literal, names and operators are such. -/
def WellFormed (operators : Operators) : Expr → Prop
  | .number value => ∃ literal, IsPlain literal ∧ Literal.value literal = value
  | .variable name => IsName name
  | .binary operator left right => operators.Effective operator ∧ IsSign operator ∧
    left.WellFormed operators ∧ right.WellFormed operators
  | .call callee arguments => IsName callee ∧ ArgumentsWellFormed operators arguments

/-- Every argument is one of the language. -/
def ArgumentsWellFormed (operators : Operators) : List Expr → Prop
  | [] => True
  | argument :: arguments =>
    argument.WellFormed operators ∧ ArgumentsWellFormed operators arguments

end

theorem argumentsWellFormed_iff {operators : Operators} {arguments : List Expr} :
    ArgumentsWellFormed operators arguments ↔
      ∀ argument ∈ arguments, argument.WellFormed operators := by
  induction arguments with
  | nil => simp [ArgumentsWellFormed]
  | cons argument arguments ih => simp [ArgumentsWellFormed, ih]

end Expr

/-- The item is one of the language; a function without a name has no parameters. -/
def Item.WellFormed (settings : Settings) : Item → Prop
  | .declaration prototype => prototype.WellFormed settings
  | .function defined =>
    (defined.prototype = .anonymous ∨ defined.prototype.WellFormed settings) ∧
      defined.body.WellFormed settings.operators

theorem IsName.isSpelled {name : String} (isName : IsName name) : (Token.name name).IsSpelled := by
  refine ⟨name.toList, ?_⟩
  have same : Token.ofWord (String.ofList name.toList) = .name name := by
    rw [String.ofList_toList, Token.ofWord, if_neg isName.notDefine, if_neg isName.notDeclare]
  obtain ⟨begins, word, _, _⟩ := isName
  cases chars : name.toList with
  | nil => simp [chars] at begins
  | cons first others =>
    rw [chars] at begins word same
    obtain ⟨_, alphanum⟩ := Bool.and_eq_true_iff.mp word
    exact same ▸ .word begins (List.all_eq_true.mp alphanum)

theorem IsPlain.isSpelled {literal : List Char} (plain : IsPlain literal) :
    (Token.number (Literal.value literal)).IsSpelled := by
  refine ⟨literal, .literal ?_ (List.all_eq_true.mp plain.parts)⟩
  rintro rfl
  exact absurd plain.digit (by decide)

theorem IsSign.isSpelled {char : Char} (sign : IsSign char) : (Token.symbol char).IsSpelled :=
  ⟨_, .sign sign⟩

theorem Item.WellFormed.prototype_of_named {settings : Settings} {function : Function}
    (wellFormed : (Item.function function).WellFormed settings)
    (named : function.isAnonymous = false) : function.prototype.WellFormed settings := by
  rcases wellFormed.1 with same | formed
  · simp [Function.isAnonymous, same, Prototype.anonymous] at named
  · exact formed

namespace Grammar

/-- A chain that is nothing but parentheses around another one. -/
def Chain.Parenthesised (chain : Chain) : Prop := ∃ inner, chain = ⟨.group inner, []⟩

/-- Two chains with an operator between them. -/
def Chain.join (left : Chain) (operator : Char) (right : Chain) : Chain :=
  ⟨left.first, left.links ++ (operator, right.first) :: right.links⟩

/-- A chain writes a tree. -/
inductive Spells (strength : Char → Int) : Expr → Chain → Prop where
  | number (value : Binary64) : Spells strength (.number value) ⟨.number value, []⟩
  | variable (name : String) : Spells strength (.variable name) ⟨.variable name, []⟩
  | call (callee : String) {arguments : List (Expr × Chain)}
    (spelled : ∀ argument ∈ arguments, Spells strength argument.1 argument.2) :
    Spells strength (.call callee (arguments.map (·.1))) ⟨.call callee (arguments.map (·.2)), []⟩
  | binary {operator : Char} {left right : Expr} {leftChain rightChain : Chain}
    (leftSpelled : Spells strength left leftChain) (rightSpelled : Spells strength right rightChain)
    (leftParenthesised : ∀ root ∈ left.root?, strength root < strength operator →
      leftChain.Parenthesised)
    (rightParenthesised : ∀ root ∈ right.root?, strength root ≤ strength operator →
      rightChain.Parenthesised) :
    Spells strength (.binary operator left right) (leftChain.join operator rightChain)
  | group {tree : Expr} {inner : Chain} (spelled : Spells strength tree inner) :
    Spells strength tree ⟨.group inner, []⟩

/-- A clause writes an item; a function without a name is only its body. -/
inductive SpellsItem (strength : Char → Int) : Item → Clause → Prop where
  | declaration (prototype : Prototype) :
    SpellsItem strength (.declaration prototype) (.declaration prototype)
  | definition {function : Function} {chain : Chain} (named : function.isAnonymous = false)
    (spelled : Spells strength function.body chain) :
    SpellsItem strength (.function function) (.definition function.prototype chain)
  | expression {function : Function} {chain : Chain} (anonymous : function.isAnonymous = true)
    (spelled : Spells strength function.body chain) :
    SpellsItem strength (.function function) (.expression chain)

/-- Parts write items, each followed by a semicolon. -/
inductive SpellsItems (strength : Char → Int) : List Item → List Part → Prop where
  | nil : SpellsItems strength [] []
  | cons {item : Item} {items : List Item} {clause : Clause} {parts : List Part}
    (first : SpellsItem strength item clause) (others : SpellsItems strength items parts) :
    SpellsItems strength (item :: items) (.clause clause :: .semicolon :: parts)

/-- A text writes items, with blanks between its tokens. -/
def Writes (strength : Char → Int) (items : List Item) (text : String) : Prop :=
  ∃ parts, SpellsItems strength items parts ∧ Spaced (programTokens parts) text.toList

variable {operators : Operators} {settings : Settings} {strength : Char → Int}

theorem Chain.tokens_join (left : Chain) (operator : Char) (right : Chain) :
    (left.join operator right).tokens = left.tokens ++ .symbol operator :: right.tokens := by
  rcases left with ⟨first, links⟩
  rcases right with ⟨operand, others⟩
  simp only [join, tokens, linkTokens_append, linkTokens, List.append_assoc]

/-- The links of an operand with parentheses where its root is too loose are all tight enough. -/
private theorem tight_of_parenthesised (limit : Int) {tree : Expr} {chain : Chain}
    (least : ∀ link ∈ chain.links, ∃ root ∈ tree.root?, strength root ≤ strength link.1)
    (parenthesised : ∀ root ∈ tree.root?, strength root < limit → chain.Parenthesised) :
    ∀ link ∈ chain.links, limit ≤ strength link.1 := by
  intro link member
  obtain ⟨root, top, le⟩ := least link member
  by_cases looser : strength root < limit
  · obtain ⟨inner, rfl⟩ := parenthesised root top looser
    contradiction
  · omega

/-- Outside parentheses no operator is looser than the root. -/
theorem Spells.root_le {tree : Expr} {chain : Chain} (spells : Spells strength tree chain) :
    ∀ link ∈ chain.links, ∃ root ∈ tree.root?, strength root ≤ strength link.1 := by
  induction spells with
  | number | «variable» | call | group => simp
  | @binary operator left right leftChain rightChain _ _ leftParenthesised rightParenthesised
      leftLeast rightLeast =>
    -- An operand that has links has no parentheses, so its root did not need them.
    intro link member
    refine ⟨operator, rfl, ?_⟩
    rcases List.mem_append.mp member with member | member
    · exact tight_of_parenthesised _ leftLeast leftParenthesised link member
    · rcases List.mem_cons.mp member with rfl | member
      · exact Int.le_refl _
      · exact tight_of_parenthesised _ rightLeast
          (fun root top looser => rightParenthesised root top (Int.le_of_lt looser)) link member

/-- The root of a tree is the rightmost of the loosest operators outside parentheses. -/
theorem Spells.loosest {operator : Char} {left right : Expr} {leftChain rightChain : Chain}
    (leftSpells : Spells strength left leftChain) (rightSpells : Spells strength right rightChain)
    (leftParenthesised : ∀ root ∈ left.root?, strength root < strength operator →
      leftChain.Parenthesised)
    (rightParenthesised : ∀ root ∈ right.root?, strength root ≤ strength operator →
      rightChain.Parenthesised) :
    (⟨linkTrees strength leftChain.links, operator, rightChain.first.tree strength,
      linkTrees strength rightChain.links⟩ : Cut Expr).Loosest strength := by
  simp only [linkTrees_eq_map]
  constructor
  · intro link member
    obtain ⟨source, present, rfl⟩ := List.mem_map.mp member
    exact tight_of_parenthesised _ leftSpells.root_le leftParenthesised source present
  · intro link member
    obtain ⟨source, present, rfl⟩ := List.mem_map.mp member
    exact tight_of_parenthesised (strength operator + 1) rightSpells.root_le
      (fun root top looser => rightParenthesised root top (Int.lt_add_one_iff.mp looser))
      source present

/-- What writes a tree has that tree. -/
theorem Spells.tree_eq {tree : Expr} {chain : Chain} (spells : Spells strength tree chain) :
    chain.tree strength = tree := by
  induction spells with
  | number | «variable» => exact group_nil _ _
  | @call callee arguments _ trees =>
    have same : argumentTrees strength (arguments.map (·.2)) = arguments.map (·.1) := by
      rw [argumentTrees_eq_map, List.map_map]
      exact List.map_congr_left trees
    rw [Chain.tree, linkTrees, group_nil, Primary.tree, same]
  | @binary operator left right leftChain rightChain leftSpells rightSpells leftParenthesised
      rightParenthesised leftTree rightTree =>
    have loosest := leftSpells.loosest rightSpells leftParenthesised rightParenthesised
    rcases leftChain with ⟨first, links⟩
    rcases rightChain with ⟨operand, others⟩
    rw [Chain.tree] at leftTree rightTree
    rw [Chain.join, Chain.tree, linkTrees_append, ← leftTree, ← rightTree]
    exact group_cut loosest _
  | group _ ih => exact (group_nil _ _).trans ih

theorem Spells.uses {tree : Expr} {chain : Chain} (spells : Spells strength tree chain)
    (wellFormed : tree.WellFormed operators) : chain.Uses operators := by
  induction spells with
  | number | «variable» => exact ⟨trivial, trivial⟩
  | call callee _ ih =>
    refine ⟨argumentsUse_iff.mpr fun chain member => ?_, trivial⟩
    obtain ⟨argument, present, rfl⟩ := List.mem_map.mp member
    exact ih argument present
      (Expr.argumentsWellFormed_iff.mp wellFormed.2 argument.1 (List.mem_map_of_mem present))
  | @binary operator left right leftChain rightChain _ _ _ _ leftUses rightUses =>
    obtain ⟨effective, _, leftFormed, rightFormed⟩ := wellFormed
    rcases leftChain with ⟨first, links⟩
    rcases rightChain with ⟨operand, others⟩
    obtain ⟨firstUses, linksUse⟩ := leftUses leftFormed
    obtain ⟨operandUses, othersUse⟩ := rightUses rightFormed
    refine ⟨firstUses, ?_⟩
    rw [linksUse_iff] at *
    exact List.forall_mem_append.mpr
      ⟨linksUse, List.forall_mem_cons.mpr ⟨⟨effective, operandUses⟩, othersUse⟩⟩
  | group _ ih => exact ⟨ih wellFormed, trivial⟩

/-- Every tree is written with parentheses around all operands. -/
theorem exists_spells (strength : Char → Int) (tree : Expr) :
    ∃ chain, Spells strength tree chain := by
  induction tree using Expr.tree_induction with
  | number value => exact ⟨_, .number value⟩
  | «variable» name => exact ⟨_, .variable name⟩
  | binary operator left right leftSpelled rightSpelled =>
    obtain ⟨leftChain, leftSpells⟩ := leftSpelled
    obtain ⟨rightChain, rightSpells⟩ := rightSpelled
    exact ⟨Chain.join ⟨.group leftChain, []⟩ operator ⟨.group rightChain, []⟩,
      .binary leftSpells.group rightSpells.group (fun _ _ _ => ⟨_, rfl⟩) (fun _ _ _ => ⟨_, rfl⟩)⟩
  | call callee arguments spelled =>
    obtain ⟨pairs, rfl, spells⟩ : ∃ pairs : List (Expr × Chain), pairs.map (·.1) = arguments ∧
        ∀ pair ∈ pairs, Spells strength pair.1 pair.2 := by
      induction arguments with
      | nil => exact ⟨[], rfl, by simp⟩
      | cons argument arguments ih =>
        obtain ⟨⟨chain, first⟩, others⟩ := List.forall_mem_cons.mp spelled
        obtain ⟨pairs, rfl, spells⟩ := ih others
        exact ⟨(argument, chain) :: pairs, rfl, List.forall_mem_cons.mpr ⟨first, spells⟩⟩
    exact ⟨_, .call callee spells⟩

/-! ### Items -/

theorem SpellsItem.item_eq {item : Item} {clause : Clause}
    (spells : SpellsItem strength item clause) (wellFormed : item.WellFormed settings) :
    clause.item strength = item := by
  cases spells with
  | declaration => rfl
  | definition _ spells => rw [Clause.item, spells.tree_eq]
  | @expression function chain anonymous spells =>
    rcases function with ⟨prototype, body⟩
    have reserved : prototype.name = Prototype.anonymousName := by
      simpa [Function.isAnonymous] using anonymous
    rcases wellFormed.1 with same | named
    · rw [Clause.item, spells.tree_eq, Function.ofExpr, ← same]
    · have begins := named.name.begins
      rw [reserved] at begins
      contradiction

theorem SpellsItem.fits {item : Item} {clause : Clause} (spells : SpellsItem strength item clause)
    (wellFormed : item.WellFormed settings) : clause.Fits settings := by
  cases spells with
  | declaration => exact wellFormed.allowed
  | definition named spells =>
    exact ⟨(wellFormed.prototype_of_named named).allowed, spells.uses wellFormed.2⟩
  | expression _ spells => exact spells.uses wellFormed.2

theorem SpellsItems.items_eq {items : List Item} {parts : List Part}
    (spells : SpellsItems strength items parts)
    (wellFormed : ∀ item ∈ items, item.WellFormed settings) :
    parts.filterMap (Part.item? strength) = items := by
  induction spells with
  | nil => rfl
  | cons first _ ih =>
    obtain ⟨formed, others⟩ := List.forall_mem_cons.mp wellFormed
    simp only [List.filterMap_cons, Part.item?, first.item_eq formed, ih others]

theorem SpellsItems.fits {items : List Item} {parts : List Part}
    (spells : SpellsItems strength items parts)
    (wellFormed : ∀ item ∈ items, item.WellFormed settings) :
    ∀ part ∈ parts, part.Fits settings := by
  induction spells with
  | nil => simp
  | cons first _ ih =>
    obtain ⟨formed, others⟩ := List.forall_mem_cons.mp wellFormed
    exact List.forall_mem_cons.mpr
      ⟨first.fits formed, List.forall_mem_cons.mpr ⟨trivial, ih others⟩⟩

/-- The semicolons keep the clauses apart. -/
theorem SpellsItems.separated {items : List Item} {parts : List Part}
    (spells : SpellsItems strength items parts)
    (spared : ¬ settings.operators.Effective ';') : Separated settings parts := by
  induction spells with
  | nil => trivial
  | @cons _ _ clause _ _ _ ih =>
    refine ⟨?_, trivial, ih⟩
    cases clause with
    | definition _ body | expression body => exact body.ends_of_mark spared (by decide)
    | declaration => trivial

/-! ### Texts -/

theorem Spells.isSpelled {tree : Expr} {chain : Chain} (spells : Spells strength tree chain)
    (wellFormed : tree.WellFormed operators) : ∀ token ∈ chain.tokens, token.IsSpelled := by
  have opening : (Token.symbol '(').IsSpelled := IsSign.isSpelled (by decide)
  have closing : (Token.symbol ')').IsSpelled := IsSign.isSpelled (by decide)
  induction spells with
  | number value =>
    obtain ⟨literal, plain, rfl⟩ := wellFormed
    exact List.forall_mem_singleton.mpr plain.isSpelled
  | «variable» name => exact List.forall_mem_singleton.mpr wellFormed.isSpelled
  | @call callee arguments _ ih =>
    obtain ⟨isName, argumentsFormed⟩ := wellFormed
    have inside : ∀ token ∈ argumentTokens (arguments.map (·.2)), token.IsSpelled := by
      intro token member
      rcases mem_argumentTokens member with rfl | ⟨chain, found, member⟩
      · exact IsSign.isSpelled (by decide)
      · obtain ⟨argument, present, rfl⟩ := List.mem_map.mp found
        exact ih argument present (Expr.argumentsWellFormed_iff.mp argumentsFormed argument.1
          (List.mem_map_of_mem present)) token member
    intro token member
    simp only [Chain.tokens, linkTokens, Primary.tokens, List.append_nil, List.mem_cons,
      List.mem_append, List.not_mem_nil, or_false] at member
    rcases member with rfl | rfl | member | rfl
    · exact isName.isSpelled
    · exact opening
    · exact inside token member
    · exact closing
  | binary _ _ _ _ leftSpelled rightSpelled =>
    obtain ⟨_, sign, leftFormed, rightFormed⟩ := wellFormed
    rw [Chain.tokens_join]
    exact List.forall_mem_append.mpr ⟨leftSpelled leftFormed,
      List.forall_mem_cons.mpr ⟨sign.isSpelled, rightSpelled rightFormed⟩⟩
  | group _ ih =>
    intro token member
    simp only [Chain.tokens, linkTokens, Primary.tokens, List.append_nil, List.mem_cons,
      List.mem_append, List.not_mem_nil, or_false] at member
    rcases member with rfl | member | rfl
    · exact opening
    · exact ih wellFormed token member
    · exact closing

theorem isSpelled_of_mem_prototypeTokens {prototype : Prototype}
    (wellFormed : prototype.WellFormed settings) :
    ∀ token ∈ prototypeTokens prototype, token.IsSpelled := by
  intro token member
  simp only [prototypeTokens, List.mem_cons, List.mem_append, List.mem_map, List.not_mem_nil,
    or_false] at member
  rcases member with rfl | rfl | ⟨parameter, present, rfl⟩ | rfl
  · exact wellFormed.name.isSpelled
  · exact IsSign.isSpelled (by decide)
  · exact (wellFormed.parameters parameter present).isSpelled
  · exact IsSign.isSpelled (by decide)

theorem SpellsItem.isSpelled {item : Item} {clause : Clause}
    (spells : SpellsItem strength item clause) (wellFormed : item.WellFormed settings) :
    ∀ token ∈ clause.tokens, token.IsSpelled := by
  have define : Token.define.IsSpelled :=
    ⟨_, @Lexeme.word 'd' "ef".toList rfl (List.all_eq_true.mp rfl)⟩
  have declare : Token.declare.IsSpelled :=
    ⟨_, @Lexeme.word 'e' "xtern".toList rfl (List.all_eq_true.mp rfl)⟩
  cases spells with
  | declaration =>
    exact List.forall_mem_cons.mpr ⟨declare, isSpelled_of_mem_prototypeTokens wellFormed⟩
  | definition named spells =>
    have prototypeSpelled :=
      isSpelled_of_mem_prototypeTokens (wellFormed.prototype_of_named named)
    exact List.forall_mem_cons.mpr ⟨define, List.forall_mem_append.mpr
      ⟨prototypeSpelled, spells.isSpelled wellFormed.2⟩⟩
  | expression _ spells => exact spells.isSpelled wellFormed.2

theorem SpellsItems.isSpelled {items : List Item} {parts : List Part}
    (spells : SpellsItems strength items parts)
    (wellFormed : ∀ item ∈ items, item.WellFormed settings) :
    ∀ token ∈ programTokens parts, token.IsSpelled := by
  induction spells with
  | nil => simp
  | cons first _ ih =>
    obtain ⟨formed, others⟩ := List.forall_mem_cons.mp wellFormed
    rw [programTokens_cons, programTokens_cons]
    exact List.forall_mem_append.mpr ⟨first.isSpelled formed,
      List.forall_mem_cons.mpr ⟨IsSign.isSpelled (by decide), ih others⟩⟩

theorem exists_spellsItems (strength : Char → Int) (items : List Item) :
    ∃ parts, SpellsItems strength items parts := by
  induction items with
  | nil => exact ⟨[], .nil⟩
  | cons item items ih =>
    obtain ⟨parts, others⟩ := ih
    cases item with
    | declaration prototype => exact ⟨_, .cons (.declaration prototype) others⟩
    | function function =>
      obtain ⟨chain, spells⟩ := exists_spells strength function.body
      cases anonymous : function.isAnonymous with
      | false => exact ⟨_, .cons (.definition anonymous spells) others⟩
      | true => exact ⟨_, .cons (.expression anonymous spells) others⟩

/-- Items of the language can be written. -/
theorem exists_writes (strength : Char → Int) {items : List Item}
    (wellFormed : ∀ item ∈ items, item.WellFormed settings) :
    ∃ text, Writes strength items text := by
  obtain ⟨parts, spells⟩ := exists_spellsItems strength items
  obtain ⟨chars, spaced⟩ := exists_spaced (spells.isSpelled wellFormed)
  exact ⟨String.ofList chars, parts, spells, by rwa [String.toList_ofList]⟩

end Grammar

end OpLang
