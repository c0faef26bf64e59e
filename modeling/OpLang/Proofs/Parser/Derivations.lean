import OpLang.Proofs.Parser.Trees

/-! # Runs over expressions of the grammar

Where the tokens ahead are those of a primary or of a chain, and what follows cannot make it longer,
there is a run that reads exactly these tokens and answers the tree. The induction is along the
nesting of the grammar; inside a chain it is on the number of links, which `climb` splits into the
tighter ones behind an operator and the others.
-/

namespace OpLang.Parser

open Grammar

variable {operators : Operators}

/-- Parsers that look at a primary read it, as long as what follows ends it. -/
def PrimaryRuns (operators : Operators) (primary : Primary) : Prop :=
  ∀ {τ : Type} [TokenSource τ] (parser : Parser τ) (others : List Token),
    parser.settings.operators = operators → parser.upcoming = primary.tokens ++ others →
    primary.Ends others → ∃ rest, rest.upcoming = others ∧
      Runs .primary parser (.ok (primary.tree operators.strength), rest)

/-- Parsers that look at a chain read it, as long as what follows ends it. -/
def ChainRuns (operators : Operators) (chain : Chain) : Prop :=
  ∀ {τ : Type} [TokenSource τ] (parser : Parser τ) (others : List Token),
    parser.settings.operators = operators → parser.upcoming = chain.tokens ++ others →
    chain.Ends operators others → ∃ rest, rest.upcoming = others ∧
      Runs .expression parser (.ok (chain.tree operators.strength), rest)

variable {τ : Type} [TokenSource τ] {parser : Parser τ}

/-- Links of a chain with the strength of the first above that of those behind a place. -/
private theorem split_links (operators : Operators) (limit : Int) (links : List (Char × Primary)) :
    ∃ inner outer, links = inner ++ outer ∧
      (∀ link ∈ inner, limit < operators.strength link.1) ∧
      ∀ link ∈ outer.head?, operators.strength link.1 ≤ limit := by
  refine ⟨links.takeWhile fun link => limit < operators.strength link.1,
    links.dropWhile fun link => limit < operators.strength link.1, ?_, ?_, ?_⟩
  · exact List.takeWhile_append_dropWhile.symm
  · intro link member
    have passes := List.all_eq_true.mp List.all_takeWhile link member
    simpa using passes
  · intro link member
    have fails := List.head?_dropWhile_not (fun link => limit < operators.strength link.1) links
    rw [Option.mem_def.mp member] at fails
    simpa using fails

/-- What follows tighter links begins with a weaker operator, if it begins with one at all. -/
private theorem weaker_of_split {minimum limit : Int} {outer : List (Char × Primary)}
    {others : List Token} (loose : ∀ link ∈ outer.head?, operators.strength link.1 ≤ limit)
    (weaker : Weaker operators minimum others) (tight : minimum ≤ limit) :
    Weaker operators (limit + 1) (linkTokens outer ++ others) := by
  intro char head effective
  cases outer with
  | nil =>
    have := weaker char head effective
    omega
  | cons link outer =>
    obtain rfl : link.1 = char := by simpa [linkTokens] using head
    have := loose link (by simp)
    omega

/-- A parser that looks at no operator of some strength stops climbing there. -/
private theorem runs_stop {minimum : Int32} (left : Expr)
    (table : parser.settings.operators = operators)
    (weaker : Weaker operators minimum.toInt parser.upcoming) :
    Runs (.climb minimum left) parser (.ok left, parser) := by
  refine .stop fun char precedence operator => ?_
  obtain ⟨effective, strength⟩ := strength_of_operator? table operator
  have less := weaker char (by rw [upcoming_of_operator? operator]; rfl) effective
  rw [strength] at less
  exact Int32.lt_iff_toInt_lt.mpr less

/-- A parser looks at a tighter operator exactly where a tighter link follows. -/
private theorem precedence_lt_iff {limit : Int32} {inner : List (Char × Primary)}
    {others : List Token} (table : parser.settings.operators = operators)
    (positive : 0 < limit.toInt) (uses : LinksUse operators inner)
    (tight : ∀ link ∈ inner, limit.toInt < operators.strength link.1)
    (upcoming : parser.upcoming = linkTokens inner ++ others)
    (weaker : Weaker operators (limit.toInt + 1) others) :
    limit < parser.precedence ↔ inner ≠ [] := by
  rw [Int32.lt_iff_toInt_lt]
  cases inner with
  | nil =>
    simp only [ne_eq, not_true_eq_false, iff_false]
    cases found : parser.operator? with
    | none =>
      rw [Parser.precedence, found]
      change ¬ limit.toInt < -1
      omega
    | some entry =>
      obtain ⟨effective, strength⟩ := strength_of_operator? table found
      have head := congrArg List.head? (upcoming.symm.trans (upcoming_of_operator? found))
      have less := weaker entry.1 (by simpa [linkTokens] using head) effective
      rw [precedence_eq_of_operator? found]
      omega
  | cons link inner =>
    simp only [ne_eq, reduceCtorEq, not_false_eq_true, iff_true]
    rw [linkTokens, List.cons_append] at upcoming
    obtain ⟨precedence, operator, strength⟩ := operator?_of_upcoming table uses.1 upcoming
    rw [precedence_eq_of_operator? operator, ← strength]
    exact tight link (by simp)

/-- Links that are all strong enough are climbed to the last one. -/
theorem runs_climb_links (spared : ¬ operators.Effective '(') {minimum : Int32} (left : Expr)
    (first : Primary) {links : List (Char × Primary)} {others : List Token}
    (table : parser.settings.operators = operators)
    (upcoming : parser.upcoming = linkTokens links ++ others)
    (operands : ∀ link ∈ links, PrimaryRuns operators link.2)
    (uses : LinksUse operators links)
    (tight : ∀ link ∈ links, minimum.toInt ≤ operators.strength link.1)
    (weaker : Weaker operators minimum.toInt others)
    (ends : (lastOperand first links).Ends others) :
    ∃ rest, rest.upcoming = others ∧ Runs (.climb minimum left) parser
      (.ok (Grammar.group operators.strength left (linkTrees operators.strength links)), rest) := by
  -- The tighter links behind an operator are climbed by a call of their own, so both parts of the
  -- split are shorter chains with minima of their own.
  induction length : links.length using Nat.strongRecOn generalizing minimum left first links others
    parser with
  | ind n ih =>
    cases links with
    | nil =>
      refine ⟨parser, upcoming, ?_⟩
      rw [linkTrees, group_nil]
      exact runs_stop left table (by rw [upcoming]; exact weaker)
    | cons link links =>
      rcases link with ⟨char, operand⟩
      obtain ⟨effective, operandUses, linksUse⟩ := uses
      obtain ⟨operandRuns, linksRun⟩ := List.forall_mem_cons.mp operands
      obtain ⟨headTight, linksTight⟩ := List.forall_mem_cons.mp tight
      rw [linkTokens, List.cons_append, List.append_assoc] at upcoming
      obtain ⟨precedence, operator, strength⟩ := operator?_of_upcoming table effective upcoming
      have above : minimum.toInt ≤ precedence.toInt := strength ▸ headTight
      have positive : 0 < precedence.toInt := strength ▸ effective.strength_pos
      obtain ⟨middle, middleUpcoming, operandRan⟩ := operandRuns parser.advance _ table
        (upcoming_eq_cons_iff.mp upcoming).2.2 (Primary.ends_of_links spared linksUse ends)
      have middleTable := operandRan.table_eq table
      obtain ⟨inner, outer, rfl, innerTight, outerLoose⟩ :=
        split_links operators precedence.toInt links
      obtain ⟨innerRun, outerRun⟩ := List.forall_mem_append.mp linksRun
      obtain ⟨innerUse, outerUse⟩ := List.forall_mem_append.mp (linksUse_iff.mp linksUse)
      rw [← linksUse_iff] at innerUse outerUse
      obtain ⟨_, outerTight⟩ := List.forall_mem_append.mp linksTight
      have stops := weaker_of_split outerLoose weaker above
      rw [linkTokens_append, List.append_assoc] at middleUpcoming
      rw [lastOperand, lastOperand_append] at ends
      rw [group_linkTrees left (strength ▸ innerTight) (strength ▸ outerLoose)]
      have tighterIff := precedence_lt_iff middleTable positive innerUse innerTight middleUpcoming
        stops
      have lengths : inner.length + outer.length + 1 = n := by
        rw [← length, List.length_cons, List.length_append]
      have climbed : minimum ≤ precedence := Int32.le_iff_toInt_le.mpr above
      by_cases single : inner = []
      · subst single
        have loose : ¬ precedence < middle.precedence := fun less => tighterIff.mp less rfl
        rw [linkTrees, group_nil]
        obtain ⟨rest, restUpcoming, ran⟩ := ih outer.length (by omega) _ _ middleTable
          (by exact middleUpcoming) outerRun outerUse outerTight weaker ends rfl
        exact ⟨rest, restUpcoming, .link operator climbed operandRan loose ran⟩
      · have tighter : precedence < middle.precedence := tighterIff.mpr single
        have innerStrong : ∀ link ∈ inner,
            (precedence + 1).toInt ≤ operators.strength link.1 := by
          intro link member
          have := innerTight link member
          rw [toInt_succ tighter]
          omega
        obtain ⟨next, nextUpcoming, inside⟩ := ih inner.length (by omega) _ operand middleTable
          middleUpcoming innerRun innerUse innerStrong (toInt_succ tighter ▸ stops)
          (Primary.ends_of_links spared outerUse ends) rfl
        obtain ⟨rest, restUpcoming, ran⟩ := ih outer.length (by omega) _ _
          (inside.table_eq middleTable) nextUpcoming outerRun outerUse outerTight weaker ends rfl
        -- The inner call stops where the outer links begin, and the outer call goes on from there.
        exact ⟨rest, restUpcoming, .tighterLink operator climbed operandRan tighter inside ran⟩

/-- Arguments are read up to their closing parenthesis, behind those already read. -/
theorem runs_arguments_of_tokens (spared : operators.Spares ['(', ')', ',']) (read : Array Expr)
    (parser : Parser τ) {arguments : List Chain} {others : List Token} (filled : arguments ≠ [])
    (table : parser.settings.operators = operators)
    (upcoming : parser.upcoming = argumentTokens arguments ++ .symbol ')' :: others)
    (chains : ∀ argument ∈ arguments, ChainRuns operators argument) :
    ∃ trees rest, trees.toList = read.toList ++ argumentTrees operators.strength arguments ∧
      rest.upcoming = others ∧ Runs (.arguments read) parser (.ok trees, rest) := by
  induction arguments generalizing read parser with
  | nil => exact absurd rfl filled
  | cons argument arguments ih =>
    obtain ⟨first, more⟩ := List.forall_mem_cons.mp chains
    by_cases single : arguments = []
    · subst single
      have ends : argument.Ends operators (.symbol ')' :: others) :=
        argument.ends_of_mark (spared.not_effective (by simp)) (by decide)
      obtain ⟨rest, restUpcoming, ran⟩ := first parser _ table upcoming ends
      obtain ⟨_, closed, behind⟩ := upcoming_eq_cons_iff.mp restUpcoming
      exact ⟨_, rest.advance, Array.toList_push, behind, .lastArgument ran closed⟩
    · rw [argumentTokens_cons argument single, List.append_assoc] at upcoming
      have ends : argument.Ends operators
          (.symbol ',' :: argumentTokens arguments ++ .symbol ')' :: others) :=
        argument.ends_of_mark (spared.not_effective (by simp)) (by decide)
      obtain ⟨middle, middleUpcoming, ran⟩ := first parser _ table upcoming ends
      obtain ⟨_, comma, behind⟩ := upcoming_eq_cons_iff.mp middleUpcoming
      have otherTable : middle.advance.settings.operators = operators := ran.table_eq table
      obtain ⟨trees, rest, whole, restUpcoming, othersRan⟩ :=
        ih (read.push (argument.tree operators.strength)) middle.advance single otherTable behind
          more
      refine ⟨trees, rest, ?_, restUpcoming, .moreArguments ran comma othersRan⟩
      rw [whole, Array.toList_push, argumentTrees, List.append_assoc, List.singleton_append]

private theorem runs_call_of_tokens (spared : operators.Spares ['(', ')', ',']) {callee : String}
    {arguments : List Chain} {others : List Token} (table : parser.settings.operators = operators)
    (upcoming : parser.upcoming = (Primary.call callee arguments).tokens ++ others)
    (chains : ∀ argument ∈ arguments, ChainRuns operators argument) :
    ∃ rest, rest.upcoming = others ∧ Runs .primary parser
      (.ok ((Primary.call callee arguments).tree operators.strength), rest) := by
  rw [Primary.tokens, List.cons_append, List.cons_append, List.append_assoc] at upcoming
  obtain ⟨_, current, behindName⟩ := upcoming_eq_cons_iff.mp upcoming
  obtain ⟨_, opened, inside⟩ := upcoming_eq_cons_iff.mp behindName
  by_cases empty : arguments = []
  · subst empty
    obtain ⟨_, closed, behind⟩ := upcoming_eq_cons_iff.mp inside
    exact ⟨_, behind, .emptyCall current opened closed⟩
  · obtain ⟨trees, rest, whole, restUpcoming, ran⟩ :=
      runs_arguments_of_tokens spared #[] parser.advance.advance empty table inside chains
    have filled : parser.advance.advance.current ≠ .symbol ')' := by
      obtain ⟨token, tokens, first, opens⟩ := argumentTokens_eq_cons empty
      rw [first, List.cons_append] at inside
      rw [(upcoming_eq_cons_iff.mp inside).2.1]
      rintro rfl
      simp [Opens] at opens
    refine ⟨rest, restUpcoming, ?_⟩
    have tree : Expr.call callee trees.toList =
        (Primary.call callee arguments).tree operators.strength := by
      rw [Primary.tree, whole]
      rfl
    exact tree ▸ .call current opened filled ran

/-- Primaries and chains of the grammar are read wherever they end. -/
theorem runs_of_tokens (spared : operators.Spares ['(', ')', ',']) :
    (∀ primary : Primary, primary.Uses operators → PrimaryRuns operators primary) ∧
      ∀ chain : Chain, chain.Uses operators → ChainRuns operators chain := by
  apply nesting_induction
  case number =>
    intro value _ τ _ parser others table upcoming _
    obtain ⟨_, current, behind⟩ := upcoming_eq_cons_iff.mp upcoming
    exact ⟨parser.advance, behind, .number current⟩
  case «variable» =>
    intro name _ τ _ parser others table upcoming ends
    obtain ⟨_, current, behind⟩ := upcoming_eq_cons_iff.mp upcoming
    refine ⟨parser.advance, behind, .variable current ?_⟩
    intro opened
    have head : others.head? = some (.symbol '(') := by
      rw [← behind.trans (List.nil_append others), upcoming_of_current opened (by simp)]
      rfl
    exact ends name rfl head
  case call =>
    intro callee arguments chains uses τ _ parser others table upcoming _
    exact runs_call_of_tokens spared table upcoming fun argument member =>
      chains argument member (argumentsUse_iff.mp uses argument member)
  case group =>
    intro inner chain uses τ _ parser others table upcoming _
    rw [Primary.tokens, List.cons_append, List.append_assoc] at upcoming
    obtain ⟨_, current, behind⟩ := upcoming_eq_cons_iff.mp upcoming
    have ends : inner.Ends operators ([.symbol ')'] ++ others) :=
      inner.ends_of_mark (spared.not_effective (by simp)) (by decide)
    obtain ⟨rest, restUpcoming, ran⟩ := chain uses parser.advance _ table behind ends
    obtain ⟨_, closed, after⟩ := upcoming_eq_cons_iff.mp restUpcoming
    exact ⟨rest.advance, after, .group current ran closed⟩
  case chain =>
    intro first links firstRuns linksRun uses τ _ parser others table upcoming ends
    obtain ⟨firstUses, linksUse⟩ := uses
    have noCall : ¬ operators.Effective '(' := spared.not_effective (by simp)
    rw [Chain.tokens, List.append_assoc] at upcoming
    obtain ⟨middle, middleUpcoming, firstRan⟩ := firstRuns firstUses parser _ table upcoming
      (Primary.ends_of_links noCall linksUse ends.noArguments)
    have tight : ∀ link ∈ links, (0 : Int32).toInt ≤ operators.strength link.1 := fun link member =>
      Int.le_of_lt (linksUse_iff.mp linksUse link member).1.strength_pos
    obtain ⟨rest, restUpcoming, linksRan⟩ := runs_climb_links noCall
      (first.tree operators.strength) first (firstRan.table_eq table) middleUpcoming
      (fun link member => linksRun link member (linksUse_iff.mp linksUse link member).2) linksUse
      tight (ends.weaker _) ends.noArguments
    exact ⟨rest, restUpcoming, .chain firstRan linksRan⟩

end OpLang.Parser
