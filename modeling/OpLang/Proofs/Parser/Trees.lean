import OpLang.Proofs.Grammar.Chain
import OpLang.Proofs.Parser.Runs

/-! # The trees that runs build

A successful run uses up the tokens of something that the grammar knows and answers its tree. For
`climb` that is a row of links: it takes every link whose operator is tight enough, stops at the
first one that is not, and answers the tree of the whole row behind the tree it was given.
-/

namespace OpLang.Parser

open Grammar

variable {τ α : Type} [TokenSource τ] {operators : Operators} {parser middle rest : Parser τ}

/-- Between two states a primary was read, and a tree is its tree. -/
def ReadsPrimary (operators : Operators) (parser : Parser τ) (tree : Expr) (rest : Parser τ) :
    Prop :=
  ∃ primary : Primary, primary.Uses operators ∧ primary.tree operators.strength = tree ∧
    parser.upcoming = primary.tokens ++ rest.upcoming

/-- Between two states arguments were read up to their closing parenthesis. -/
def ReadsArguments (operators : Operators) (parser : Parser τ) (trees : List Expr)
    (rest : Parser τ) : Prop :=
  ∃ arguments : List Chain, arguments ≠ [] ∧ ArgumentsUse operators arguments ∧
    argumentTrees operators.strength arguments = trees ∧
    parser.upcoming = argumentTokens arguments ++ .symbol ')' :: rest.upcoming

/-- Between two states a whole chain was read. -/
def ReadsChain (operators : Operators) (parser : Parser τ) (tree : Expr) (rest : Parser τ) :
    Prop :=
  ∃ chain : Chain, chain.Uses operators ∧ chain.tree operators.strength = tree ∧
    parser.upcoming = chain.tokens ++ rest.upcoming ∧ rest.operator? = none

/-- Between two states all the links were read that are at least as strong as a minimum. -/
def ReadsLinks (operators : Operators) (minimum : Int) (left : Expr) (parser : Parser τ)
    (tree : Expr) (rest : Parser τ) : Prop :=
  ∃ links : List (Char × Primary), LinksUse operators links ∧
    Grammar.group operators.strength left (linkTrees operators.strength links) = tree ∧
    parser.upcoming = linkTokens links ++ rest.upcoming ∧
    (∀ link ∈ links, minimum ≤ operators.strength link.1) ∧
    ∀ char precedence, rest.operator? = some (char, precedence) → precedence.toInt < minimum

/-- What a successful call read. -/
def Reads (operators : Operators) : {α : Type} → Task α → Parser τ → Outcome τ α → Prop
  | _, .primary, parser, (.ok tree, rest) => ReadsPrimary operators parser tree rest
  | _, .arguments read, parser, (.ok trees, rest) =>
    ∃ others, trees.toList = read.toList ++ others ∧ ReadsArguments operators parser others rest
  | _, .expression, parser, (.ok tree, rest) => ReadsChain operators parser tree rest
  | _, .climb minimum left, parser, (.ok tree, rest) =>
    ReadsLinks operators minimum.toInt left parser tree rest
  | _, _, _, (.error _, _) => True

theorem upcoming_of_current {token : Token} (current : parser.current = token)
    (found : token ≠ .endOfInput) : parser.upcoming = token :: parser.advance.upcoming :=
  upcoming_eq_cons_iff.mpr ⟨found, current, rfl⟩

theorem upcoming_of_operator? {char : Char} {precedence : Int32}
    (operator : parser.operator? = some (char, precedence)) :
    parser.upcoming = .symbol char :: parser.advance.upcoming :=
  upcoming_of_current (operator?_eq_some_iff.mp operator).1 (by simp)

omit [TokenSource τ] in
/-- An operator at hand is known to the table with its strength. -/
theorem strength_of_operator? {char : Char} {precedence : Int32}
    (table : parser.settings.operators = operators)
    (operator : parser.operator? = some (char, precedence)) :
    operators.Effective char ∧ operators.strength char = precedence.toInt := by
  have entry := (operator?_eq_some_iff.mp operator).2
  rw [table] at entry
  exact ⟨Operators.effective_of_entry entry, Operators.strength_eq entry⟩

/-- An effective operator ahead is the operator at hand. -/
theorem operator?_of_upcoming {char : Char} {others : List Token}
    (table : parser.settings.operators = operators) (effective : operators.Effective char)
    (upcoming : parser.upcoming = .symbol char :: others) :
    ∃ precedence, parser.operator? = some (char, precedence) ∧
      operators.strength char = precedence.toInt := by
  obtain ⟨precedence, entry⟩ := Option.isSome_iff_exists.mp effective
  have current := (upcoming_eq_cons_iff.mp upcoming).2.1
  refine ⟨precedence, operator?_eq_some_iff.mpr ⟨current, ?_⟩, Operators.strength_eq entry⟩
  rw [table, entry]

omit [TokenSource τ] in
/-- Precedences of operators are positive, so below zero there is none. -/
theorem operator?_eq_none
    (stopped : ∀ char precedence, parser.operator? = some (char, precedence) →
      precedence.toInt < (0 : Int32).toInt) : parser.operator? = none := by
  cases found : parser.operator? with
  | none => rfl
  | some entry =>
    have less := stopped entry.1 entry.2 found
    have known := (operator?_eq_some_iff.mp found).2
    have positive := Int32.lt_iff_toInt_lt.mp (Operators.precedence?_eq_some_iff.mp known).2.2
    omega

theorem toInt_succ {precedence other : Int32} (less : precedence < other) :
    (precedence + 1).toInt = precedence.toInt + 1 := by
  have bound := Int32.lt_iff_toInt_lt.mp less
  have top := other.toInt_lt
  have bottom := precedence.le_toInt
  rw [Int32.toInt_add, Int32.toInt_one]
  exact Int.bmod_eq_of_le_mul_two (by omega) (by omega)

/-- A link whose operand takes the tighter links behind it, before the links that are left. -/
theorem ReadsLinks.link {minimum : Int} {precedence : Int32} {left first right tree : Expr}
    {char : Char} {next : Parser τ} (table : parser.settings.operators = operators)
    (nextTable : next.settings.operators = operators)
    (operator : parser.operator? = some (char, precedence)) (tight : minimum ≤ precedence.toInt)
    (operand : ReadsPrimary operators parser.advance first middle)
    (inside : ReadsLinks operators (precedence.toInt + 1) first middle right next)
    (links : ReadsLinks operators minimum (.binary char left right) next tree rest) :
    ReadsLinks operators minimum left parser tree rest := by
  obtain ⟨primary, primaryUses, rfl, primaryTokens⟩ := operand
  obtain ⟨inner, innerUses, rfl, innerTokens, innerTight, stopped⟩ := inside
  obtain ⟨outer, outerUses, rfl, outerTokens, outerTight, finished⟩ := links
  obtain ⟨effective, strength⟩ := strength_of_operator? table operator
  refine ⟨(char, primary) :: (inner ++ outer), ?_, ?_, ?_, ?_, finished⟩
  · rw [linksUse_iff] at innerUses outerUses ⊢
    intro link member
    rcases List.mem_cons.mp member with rfl | member
    · exact ⟨effective, primaryUses⟩
    · rcases List.mem_append.mp member with member | member
      · exact innerUses link member
      · exact outerUses link member
  · refine group_linkTrees left ?_ ?_
    · intro link member
      have := innerTight link member
      omega
    · intro link member
      cases outer with
      | nil => simp at member
      | cons head others =>
        obtain rfl : head = link := by simpa using member
        rw [linkTokens, List.cons_append] at outerTokens
        obtain ⟨found, present, known⟩ := operator?_of_upcoming nextTable outerUses.1 outerTokens
        have := stopped _ _ present
        omega
  · rw [upcoming_of_operator? operator, primaryTokens, innerTokens, outerTokens, linkTokens,
      linkTokens_append]
    simp only [List.cons_append, List.append_assoc]
  · intro link member
    rcases List.mem_cons.mp member with rfl | member
    · dsimp only
      omega
    · rcases List.mem_append.mp member with member | member
      · have := innerTight link member
        omega
      · exact outerTight link member

/-- Where nothing tighter follows, an operand takes no links. -/
theorem ReadsLinks.none {precedence : Int32} (tree : Expr)
    (loose : ¬ precedence < parser.precedence) :
    ReadsLinks operators (precedence.toInt + 1) tree parser tree parser := by
  refine ⟨[], trivial, group_nil _ _, rfl, by simp, ?_⟩
  intro char found operator
  rw [precedence_eq_of_operator? operator, Int32.not_lt, Int32.le_iff_toInt_le] at loose
  omega

theorem Runs.table_eq {task : Task α} {outcome : Outcome τ α} (ran : Runs task parser outcome)
    (table : parser.settings.operators = operators) :
    outcome.2.settings.operators = operators := by
  rw [ran.settings_eq, table]

/-- Every successful run reads what its task stands for. -/
theorem Runs.reads {task : Task α} {outcome : Outcome τ α} (ran : Runs task parser outcome)
    (table : parser.settings.operators = operators) : Reads operators task parser outcome := by
  induction ran with
  | number current => exact ⟨.number _, trivial, rfl, upcoming_of_current current (by simp)⟩
  | «variable» current _ =>
    exact ⟨.variable _, trivial, rfl, upcoming_of_current current (by simp)⟩
  | @emptyCall _ name current opened closed =>
    refine ⟨.call name [], trivial, rfl, ?_⟩
    rw [upcoming_of_current current (by simp), upcoming_of_current opened (by simp),
      upcoming_of_current closed (by simp)]
    rfl
  | @call _ _ name trees current opened _ _ inside =>
    obtain ⟨others, whole, arguments, _, uses, rfl, tokens⟩ := inside table
    refine ⟨.call name arguments, uses, ?_, ?_⟩
    · rw [Primary.tree, whole]
      rfl
    · rw [upcoming_of_current current (by simp), upcoming_of_current opened (by simp), tokens]
      simp [Primary.tokens]
  | group current _ closed inside =>
    obtain ⟨chain, uses, rfl, tokens, _⟩ := inside table
    refine ⟨.group chain, uses, rfl, ?_⟩
    rw [upcoming_of_current current (by simp), tokens, upcoming_of_current closed (by simp)]
    simp [Primary.tokens]
  | lastArgument _ closed first =>
    obtain ⟨chain, uses, rfl, tokens, _⟩ := first table
    refine ⟨[chain.tree operators.strength], Array.toList_push, [chain], by simp, ⟨uses, trivial⟩,
      rfl, ?_⟩
    rw [tokens, upcoming_of_current closed (by simp)]
    rfl
  | @moreArguments _ _ read _ outcome ranFirst comma _ first others =>
    obtain ⟨chain, uses, rfl, tokens, _⟩ := first table
    rcases outcome with ⟨_ | trees, rest⟩
    · trivial
    · obtain ⟨_, whole, arguments, filled, othersUse, rfl, otherTokens⟩ :=
        others (ranFirst.table_eq table)
      refine ⟨argumentTrees operators.strength (chain :: arguments), ?_, chain :: arguments,
        by simp, ⟨uses, othersUse⟩, rfl, ?_⟩
      · rw [whole, Array.toList_push, argumentTrees, List.append_assoc, List.singleton_append]
      · rw [tokens, upcoming_of_current comma (by simp), otherTokens,
          argumentTokens_cons chain filled]
        simp only [List.append_assoc, List.cons_append]
  | @chain _ _ _ outcome ranFirst _ first links =>
    obtain ⟨primary, uses, rfl, tokens⟩ := first table
    rcases outcome with ⟨_ | tree, rest⟩
    · trivial
    · have restTable := ranFirst.table_eq table
      obtain ⟨row, rowUses, rfl, rowTokens, _, stopped⟩ := links restTable
      refine ⟨⟨primary, row⟩, ⟨uses, rowUses⟩, rfl, ?_, ?_⟩
      · rw [tokens, rowTokens, Chain.tokens, List.append_assoc]
      · exact operator?_eq_none stopped
  | stop loose =>
    refine ⟨[], trivial, group_nil _ _, rfl, by simp, ?_⟩
    intro char precedence operator
    exact Int32.lt_iff_toInt_lt.mp (loose char precedence operator)
  | @link _ _ _ _ _ right _ outcome operator tight ranOperand loose _ operand links =>
    have nextTable := ranOperand.table_eq table
    rcases outcome with ⟨_ | tree, rest⟩
    · trivial
    · exact .link table nextTable operator (Int32.le_iff_toInt_le.mp tight) (operand table)
        (.none right loose) (links nextTable)
  | @tighterLink _ _ _ _ _ _ _ _ _ outcome operator tight ranOperand tighter ranInside _ operand
      inside links =>
    have middleTable := ranOperand.table_eq table
    have nextTable := ranInside.table_eq middleTable
    have row := inside middleTable
    rw [Reads, toInt_succ tighter] at row
    rcases outcome with ⟨_ | tree, rest⟩
    · trivial
    · exact .link table nextTable operator (Int32.le_iff_toInt_le.mp tight) (operand table) row
        (links nextTable)
  | callError | unclosedGroup | groupError | noPrimary | unclosedCall | argumentError
  | chainError | tighterError | operandError => exact trivial

end OpLang.Parser
