import OpLang.Proofs.Grammar.Grouping
import OpLang.Proofs.Operators
import OpLang.Token

/-! # Expressions as they are written

A chain is a first primary and links, each an operator and the primary behind it. It keeps what a
tree forgets, its parentheses, so it spells exactly one sequence of tokens; its tree is grouped by
the strengths of the operators. The expressions of the language are the chains whose links are all
operators of the table.
-/

namespace OpLang.Grammar

mutual

/-- A primary as it is written. -/
inductive Primary where
  | number (value : Binary64)
  | variable (name : String)
  | call (callee : String) (arguments : List Chain)
  | group (inner : Chain)

/-- An expression as it is written. -/
structure Chain where
  first : Primary
  links : List (Char × Primary)

end

mutual

/-- The tokens of a primary. -/
def Primary.tokens : Primary → List Token
  | .number value => [.number value]
  | .variable name => [.name name]
  | .call callee arguments =>
    .name callee :: .symbol '(' :: (argumentTokens arguments ++ [.symbol ')'])
  | .group inner => .symbol '(' :: (inner.tokens ++ [.symbol ')'])

/-- The tokens of a chain. -/
def Chain.tokens : Chain → List Token
  | ⟨first, links⟩ => first.tokens ++ linkTokens links

/-- The tokens of arguments with commas between them. -/
def argumentTokens : List Chain → List Token
  | [] => []
  | [argument] => argument.tokens
  | argument :: other :: arguments =>
    argument.tokens ++ .symbol ',' :: argumentTokens (other :: arguments)

/-- The tokens of links. -/
def linkTokens : List (Char × Primary) → List Token
  | [] => []
  | (operator, operand) :: links => .symbol operator :: (operand.tokens ++ linkTokens links)

end

mutual

/-- The tree of a primary; parentheses leave no node. -/
def Primary.tree (strength : Char → Int) : Primary → Expr
  | .number value => .number value
  | .variable name => .variable name
  | .call callee arguments => .call callee (argumentTrees strength arguments)
  | .group inner => inner.tree strength

/-- The tree of a chain, cut again and again at the rightmost of its loosest operators. -/
def Chain.tree (strength : Char → Int) : Chain → Expr
  | ⟨first, links⟩ => Grammar.group strength (first.tree strength) (linkTrees strength links)

/-- The trees of arguments in their order. -/
def argumentTrees (strength : Char → Int) : List Chain → List Expr
  | [] => []
  | argument :: arguments => argument.tree strength :: argumentTrees strength arguments

/-- Links with the trees of their operands. -/
def linkTrees (strength : Char → Int) : List (Char × Primary) → List (Char × Expr)
  | [] => []
  | (operator, operand) :: links => (operator, operand.tree strength) :: linkTrees strength links

end

mutual

/-- Every link in a primary is an operator of the table. -/
def Primary.Uses (operators : Operators) : Primary → Prop
  | .number _ | .variable _ => True
  | .call _ arguments => ArgumentsUse operators arguments
  | .group inner => inner.Uses operators

/-- Every link in a chain is an operator of the table. -/
def Chain.Uses (operators : Operators) : Chain → Prop
  | ⟨first, links⟩ => first.Uses operators ∧ LinksUse operators links

/-- Every link in arguments is an operator of the table. -/
def ArgumentsUse (operators : Operators) : List Chain → Prop
  | [] => True
  | argument :: arguments => argument.Uses operators ∧ ArgumentsUse operators arguments

/-- Every link, also in an operand, is an operator of the table. -/
def LinksUse (operators : Operators) : List (Char × Primary) → Prop
  | [] => True
  | (operator, operand) :: links =>
    operators.Effective operator ∧ operand.Uses operators ∧ LinksUse operators links

end

/-- Induction along the nesting of primaries and chains. -/
theorem nesting_induction {primaryMotive : Primary → Prop} {chainMotive : Chain → Prop}
    (number : ∀ value, primaryMotive (.number value))
    («variable» : ∀ name, primaryMotive (.variable name))
    (call : ∀ callee arguments, (∀ argument ∈ arguments, chainMotive argument) →
      primaryMotive (.call callee arguments))
    (group : ∀ inner, chainMotive inner → primaryMotive (.group inner))
    (chain : ∀ first links, primaryMotive first → (∀ link ∈ links, primaryMotive link.2) →
      chainMotive ⟨first, links⟩) :
    (∀ primary, primaryMotive primary) ∧ ∀ chain, chainMotive chain := by
  have noArguments : ∀ argument ∈ ([] : List Chain), chainMotive argument := by simp
  have noLinks : ∀ link ∈ ([] : List (Char × Primary)), primaryMotive link.2 := by simp
  have moreArguments (argument : Chain) (arguments : List Chain) (first : chainMotive argument)
      (others : ∀ other ∈ arguments, chainMotive other) :
      ∀ other ∈ argument :: arguments, chainMotive other :=
    List.forall_mem_cons.mpr ⟨first, others⟩
  have moreLinks (link : Char × Primary) (links : List (Char × Primary))
      (first : primaryMotive link.2) (others : ∀ other ∈ links, primaryMotive other.2) :
      ∀ other ∈ link :: links, primaryMotive other.2 :=
    List.forall_mem_cons.mpr ⟨first, others⟩
  constructor
  · exact fun primary => primary.rec number «variable» call group chain noArguments moreArguments
      noLinks moreLinks (fun _ _ operand => operand)
  · exact fun whole => whole.rec number «variable» call group chain noArguments moreArguments
      noLinks moreLinks (fun _ _ operand => operand)

variable {operators : Operators} {strength : Char → Int}

theorem argumentTrees_eq_map (arguments : List Chain) :
    argumentTrees strength arguments = arguments.map (·.tree strength) := by
  induction arguments with
  | nil => rfl
  | cons argument arguments ih => rw [argumentTrees, ih, List.map_cons]

theorem linkTrees_eq_map (links : List (Char × Primary)) :
    linkTrees strength links = links.map fun link => (link.1, link.2.tree strength) := by
  induction links with
  | nil => rfl
  | cons link links ih => rw [linkTrees, ih, List.map_cons]

theorem argumentsUse_iff {arguments : List Chain} :
    ArgumentsUse operators arguments ↔ ∀ argument ∈ arguments, argument.Uses operators := by
  induction arguments with
  | nil => simp [ArgumentsUse]
  | cons argument arguments ih => simp [ArgumentsUse, ih]

theorem linksUse_iff {links : List (Char × Primary)} : LinksUse operators links ↔
    ∀ link ∈ links, operators.Effective link.1 ∧ link.2.Uses operators := by
  induction links with
  | nil => simp [LinksUse]
  | cons link links ih => simp [LinksUse, ih, and_assoc]

theorem argumentTokens_cons (argument : Chain) {arguments : List Chain} (more : arguments ≠ []) :
    argumentTokens (argument :: arguments) =
      argument.tokens ++ .symbol ',' :: argumentTokens arguments := by
  obtain ⟨other, others, rfl⟩ := List.exists_cons_of_ne_nil more
  rfl

theorem linkTokens_append (left right : List (Char × Primary)) :
    linkTokens (left ++ right) = linkTokens left ++ linkTokens right := by
  induction left with
  | nil => rfl
  | cons link links ih => simp [linkTokens, ih]

theorem mem_linkTokens {links : List (Char × Primary)} {token : Token}
    (member : token ∈ linkTokens links) :
    ∃ link ∈ links, token = .symbol link.1 ∨ token ∈ link.2.tokens := by
  induction links with
  | nil => simp [linkTokens] at member
  | cons link links ih =>
    rcases List.mem_cons.mp member with rfl | member
    · exact ⟨link, by simp, .inl rfl⟩
    · rcases List.mem_append.mp member with member | member
      · exact ⟨link, by simp, .inr member⟩
      · obtain ⟨other, present, found⟩ := ih member
        exact ⟨other, List.mem_cons_of_mem link present, found⟩

theorem mem_argumentTokens {arguments : List Chain} {token : Token}
    (member : token ∈ argumentTokens arguments) :
    token = .symbol ',' ∨ ∃ argument ∈ arguments, token ∈ argument.tokens := by
  induction arguments with
  | nil => simp [argumentTokens] at member
  | cons argument arguments ih =>
    by_cases single : arguments = []
    · subst single
      exact .inr ⟨argument, by simp, member⟩
    · rw [argumentTokens_cons argument single] at member
      rcases List.mem_append.mp member with member | member
      · exact .inr ⟨argument, by simp, member⟩
      · rcases List.mem_cons.mp member with rfl | member
        · exact .inl rfl
        · rcases ih member with rfl | ⟨other, present, found⟩
          · exact .inl rfl
          · exact .inr ⟨other, List.mem_cons_of_mem argument present, found⟩

theorem mem_linkTokens_of_mem {links : List (Char × Primary)} {link : Char × Primary}
    {token : Token} (present : link ∈ links)
    (found : token = .symbol link.1 ∨ token ∈ link.2.tokens) : token ∈ linkTokens links := by
  obtain ⟨before, behind, rfl⟩ := List.append_of_mem present
  rw [linkTokens_append, linkTokens]
  apply List.mem_append_right
  rcases found with rfl | member
  · exact List.mem_cons_self
  · exact List.mem_cons_of_mem _ (List.mem_append_left _ member)

theorem mem_argumentTokens_of_mem {arguments : List Chain} {argument : Chain} {token : Token}
    (present : argument ∈ arguments) (member : token ∈ argument.tokens) :
    token ∈ argumentTokens arguments := by
  induction arguments with
  | nil => contradiction
  | cons first arguments ih =>
    by_cases single : arguments = []
    · subst single
      obtain rfl := List.mem_singleton.mp present
      exact member
    · rw [argumentTokens_cons first single]
      rcases List.mem_cons.mp present with rfl | present
      · exact List.mem_append_left _ member
      · exact List.mem_append_right _ (List.mem_cons_of_mem _ (ih present))

theorem linkTrees_append (left right : List (Char × Primary)) :
    linkTrees strength (left ++ right) = linkTrees strength left ++ linkTrees strength right := by
  simp only [linkTrees_eq_map, List.map_append]

/-- Tighter links belong to the operand before them. -/
theorem group_linkTrees (left : Expr) {char : Char} {operand : Primary}
    {inner outer : List (Char × Primary)}
    (tight : ∀ link ∈ inner, strength char < strength link.1)
    (loose : ∀ link ∈ outer.head?, strength link.1 ≤ strength char) :
    group strength left (linkTrees strength ((char, operand) :: (inner ++ outer))) =
      group strength (.binary char left
        (group strength (operand.tree strength) (linkTrees strength inner)))
        (linkTrees strength outer) := by
  rw [linkTrees, linkTrees_append, ← List.cons_append]
  refine group_link left ?_ ?_
  · intro link member
    rw [linkTrees_eq_map] at member
    obtain ⟨source, present, rfl⟩ := List.mem_map.mp member
    exact tight source present
  · intro link member
    rw [linkTrees_eq_map, List.head?_map] at member
    obtain ⟨source, present, rfl⟩ := Option.map_eq_some_iff.mp member
    exact loose source present

/-- The operand in front of whatever follows a row of links behind a primary. -/
def lastOperand (first : Primary) : List (Char × Primary) → Primary
  | [] => first
  | link :: links => lastOperand link.2 links

theorem lastOperand_append (first : Primary) (left right : List (Char × Primary)) :
    lastOperand first (left ++ right) = lastOperand (lastOperand first left) right := by
  induction left generalizing first with
  | nil => rfl
  | cons link links ih => exact ih link.2

/-- Tokens that cannot make a longer primary out of one: a variable would take a parenthesis for
the beginning of its arguments. -/
def Primary.Ends (primary : Primary) (others : List Token) : Prop :=
  ∀ name, primary = .variable name → others.head? ≠ some (.symbol '(')

/-- Tokens whose operator, if they begin with one, is weaker than a minimum. -/
def Weaker (operators : Operators) (minimum : Int) (others : List Token) : Prop :=
  ∀ char, others.head? = some (.symbol char) → operators.Effective char →
    operators.strength char < minimum

/-- Tokens that cannot make a longer chain out of one. -/
structure Chain.Ends (operators : Operators) (chain : Chain) (others : List Token) : Prop where
  noOperator : ∀ char, others.head? = some (.symbol char) → ¬ operators.Effective char
  noArguments : (lastOperand chain.first chain.links).Ends others

theorem Chain.Ends.weaker {chain : Chain} {others : List Token}
    (ends : chain.Ends operators others) (minimum : Int) : Weaker operators minimum others :=
  fun char head effective => absurd effective (ends.noOperator char head)

theorem Chain.ends_nil (chain : Chain) : chain.Ends operators [] :=
  ⟨by simp, by simp [Primary.Ends]⟩

/-- A closing mark that is no operator ends every chain. -/
theorem Chain.ends_of_mark (chain : Chain) {mark : Char} {others : List Token}
    (spared : ¬ operators.Effective mark) (other : mark ≠ '(') :
    chain.Ends operators (.symbol mark :: others) := by
  constructor
  · intro char head
    obtain rfl : mark = char := by simpa using head
    exact spared
  · intro name _ head
    exact other (by simpa using head)

/-- Operators do not open parentheses, so links end the primary before them. -/
theorem Primary.ends_of_links {primary : Primary} {links : List (Char × Primary)}
    {others : List Token} (spared : ¬ operators.Effective '(') (uses : LinksUse operators links)
    (last : (lastOperand primary links).Ends others) :
    primary.Ends (linkTokens links ++ others) := by
  cases links with
  | nil => exact last
  | cons link links =>
    intro name _ head
    obtain same : link.1 = '(' := by simpa [linkTokens] using head
    exact spared (same ▸ uses.1)

/-- The tokens that a primary can begin with. -/
def Opens : Token → Prop
  | .number _ | .name _ => True
  | .symbol char => char = '('
  | _ => False

theorem Primary.tokens_eq_cons (primary : Primary) :
    ∃ token others, primary.tokens = token :: others ∧ Opens token := by
  cases primary with
  | number value => exact ⟨_, _, rfl, trivial⟩
  | «variable» name => exact ⟨_, _, rfl, trivial⟩
  | call callee arguments => exact ⟨_, _, rfl, trivial⟩
  | group inner => exact ⟨_, _, rfl, rfl⟩

theorem Chain.tokens_eq_cons (chain : Chain) :
    ∃ token others, chain.tokens = token :: others ∧ Opens token := by
  rcases chain with ⟨first, links⟩
  obtain ⟨token, others, tokens, opens⟩ := first.tokens_eq_cons
  exact ⟨token, others ++ linkTokens links, by rw [Chain.tokens, tokens]; rfl, opens⟩

theorem argumentTokens_eq_cons {arguments : List Chain} (filled : arguments ≠ []) :
    ∃ token others, argumentTokens arguments = token :: others ∧ Opens token := by
  obtain ⟨argument, arguments, rfl⟩ := List.exists_cons_of_ne_nil filled
  obtain ⟨token, others, tokens, opens⟩ := argument.tokens_eq_cons
  cases arguments with
  | nil => exact ⟨token, others, tokens, opens⟩
  | cons second arguments =>
    exact ⟨token, _, by rw [argumentTokens_cons _ (by simp), tokens]; rfl, opens⟩

end OpLang.Grammar
