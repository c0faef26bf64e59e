import OpLang.Lexer
import OpLang.Program
import OpLang.Proofs.Expr
import OpLang.Proofs.Parser.Derivations

/-! # What a parser reads as an expression

The tokens of a chain determine its tree: a parser over just these tokens answers the tree of every
chain that spells them. So the tree that a parser answers is the tree of the tokens it passed,
whichever way they are cut into primaries and operators.
-/

namespace OpLang

namespace TokenList

theorem ahead_eq {tokens : List LocatedToken} (finish : Location)
    (found : ∀ token ∈ tokens, token.token ≠ .endOfInput) :
    TokenSource.ahead (⟨tokens, finish⟩ : TokenList) = tokens := by
  induction tokens with
  | nil => exact TokenSource.ahead_of_finished rfl
  | cons token tokens ih =>
    obtain ⟨first, others⟩ := List.forall_mem_cons.mp found
    have more : (TokenSource.next (⟨token :: tokens, finish⟩ : TokenList)).1.token ≠ .endOfInput :=
      first
    rw [TokenSource.ahead_of_found more]
    exact congrArg (token :: ·) (ih others)

/-- A list of tokens whose places do not matter. -/
def ofTokens (tokens : List Token) : TokenList := ⟨tokens.map (⟨·, .first⟩), .first⟩

end TokenList

namespace Parser

/-- A parser at the beginning of a list of tokens. -/
def ofTokenList (tokens : List Token) (settings : Settings) : Parser TokenList :=
  (Parser.ofTokens (.ofTokens tokens) settings).advance

theorem upcoming_ofTokenList {tokens : List Token} (settings : Settings)
    (found : ∀ token ∈ tokens, token ≠ .endOfInput) :
    (ofTokenList tokens settings).upcoming = tokens := by
  have located : ∀ token ∈ tokens.map (⟨·, .first⟩ : Token → LocatedToken),
      token.token ≠ .endOfInput := by
    intro token member
    obtain ⟨source, present, rfl⟩ := List.mem_map.mp member
    exact found source present
  rw [upcoming, ofTokenList, ahead_advance]
  change (TokenSource.ahead (TokenList.ofTokens tokens)).map _ = _
  rw [TokenList.ofTokens, TokenList.ahead_eq _ located, List.map_map]
  exact List.map_id tokens

end Parser

namespace Grammar

variable {operators : Operators}

/-- Tokens of expressions are none of the marks that stand around items. -/
theorem inside_of_mem_tokens :
    (∀ primary : Primary, ∀ token ∈ primary.tokens, token ≠ .endOfInput) ∧
      ∀ chain : Chain, ∀ token ∈ chain.tokens, token ≠ .endOfInput := by
  apply nesting_induction
  case number =>
    intro value token member
    obtain rfl := List.mem_singleton.mp member
    simp
  case «variable» =>
    intro name token member
    obtain rfl := List.mem_singleton.mp member
    simp
  case call =>
    intro callee arguments chains token member
    simp only [Primary.tokens, List.mem_cons, List.mem_append, List.not_mem_nil, or_false] at member
    rcases member with rfl | rfl | member | rfl
    · simp
    · simp
    · rcases mem_argumentTokens member with rfl | ⟨argument, present, inside⟩
      · simp
      · exact chains argument present token inside
    · simp
  case group =>
    intro inner chain token member
    simp only [Primary.tokens, List.mem_cons, List.mem_append, List.not_mem_nil, or_false] at member
    rcases member with rfl | member | rfl
    · simp
    · exact chain token member
    · simp
  case chain =>
    intro first links firstFound linksFound token member
    rcases List.mem_append.mp member with member | member
    · exact firstFound token member
    · obtain ⟨link, present, rfl | inside⟩ := mem_linkTokens member
      · simp
      · exact linksFound link present token inside

/-- The tokens of an expression determine its tree. -/
theorem Chain.tree_eq_of_tokens_eq (spared : operators.Spares ['(', ')', ',']) {chain other : Chain}
    (uses : chain.Uses operators) (otherUses : other.Uses operators)
    (same : chain.tokens = other.tokens) :
    chain.tree operators.strength = other.tree operators.strength := by
  -- A parser over the tokens reads both chains, and it has only one answer.
  let parser := Parser.ofTokenList chain.tokens ⟨operators, true⟩
  have upcoming : parser.upcoming = chain.tokens :=
    Parser.upcoming_ofTokenList _ (inside_of_mem_tokens.2 chain)
  obtain ⟨_, _, ran⟩ := (Parser.runs_of_tokens spared).2 chain uses parser [] rfl
    (by rw [upcoming, List.append_nil]) chain.ends_nil
  obtain ⟨_, _, otherRan⟩ := (Parser.runs_of_tokens spared).2 other otherUses parser [] rfl
    (by rw [upcoming, same, List.append_nil]) other.ends_nil
  have outcomes := ran.eq_run.symm.trans otherRan.eq_run
  simpa using congrArg Prod.fst outcomes

end Grammar

namespace Parser

open Grammar

variable {τ : Type} [TokenSource τ]

/-- A successful parser has passed exactly an expression, stands behind its last operator, and
answers the tree of what it passed: cut at the rightmost of the loosest operators, again and again,
inside parentheses and arguments as well. -/
theorem expression_tree (parser : Parser τ)
    (spared : parser.settings.operators.Spares ['(', ')', ',']) {tree : Expr} {rest : Parser τ}
    (read : parser.expression = (.ok tree, rest)) :
    ∃ passed : List LocatedToken, Passes parser passed rest ∧ rest.operator? = none ∧
      (∃ chain : Chain, chain.Uses parser.settings.operators ∧
        chain.tokens = passed.map (·.token)) ∧
      ∀ chain : Chain, chain.Uses parser.settings.operators →
        chain.tokens = passed.map (·.token) →
        tree = chain.tree parser.settings.operators.strength := by
  have ran : Runs .expression parser (.ok tree, rest) := read ▸ runs .expression parser
  obtain ⟨passed, passes⟩ := ran.passes
  obtain ⟨chain, uses, rfl, tokens, finished⟩ := ran.reads rfl
  have spelled : chain.tokens = passed.map (·.token) :=
    List.append_cancel_right (tokens.symm.trans passes.upcoming_eq)
  refine ⟨passed, passes, finished, ⟨chain, uses, spelled⟩, ?_⟩
  intro other otherUses otherSpelled
  exact Chain.tree_eq_of_tokens_eq spared uses otherUses (spelled.trans otherSpelled.symm)

/-- The last difference is the root, the product stays together and the parentheses vanish. -/
theorem expression_tree_of_difference :
    let parser := (parserOfText .standard "x - y*(z < x) - f(y, z)").advance
    let tree : Expr := .binary '-'
      (.binary '-' (.variable "x")
        (.binary '*' (.variable "y") (.binary '<' (.variable "z") (.variable "x"))))
      (.call "f" [.variable "y", .variable "z"])
    parser.settings.operators.Spares ['(', ')', ','] ∧
      ∃ rest, parser.expression = (.ok tree, rest) ∧
        ∃ passed : List LocatedToken, Passes parser passed rest ∧ rest.operator? = none ∧
          (∃ chain : Chain, chain.Uses parser.settings.operators ∧
            chain.tokens = passed.map (·.token)) ∧
          ∀ chain : Chain, chain.Uses parser.settings.operators →
            chain.tokens = passed.map (·.token) →
            tree = chain.tree parser.settings.operators.strength := by
  intro parser tree
  let chain : Chain := ⟨.variable "x", [
    ('-', .variable "y"),
    ('*', .group ⟨.variable "z", [('<', .variable "x")]⟩),
    ('-', .call "f" [⟨.variable "y", []⟩, ⟨.variable "z", []⟩])]⟩
  have spared : parser.settings.operators.Spares ['(', ')', ','] := by decide +kernel
  have upcoming : parser.upcoming = chain.tokens ++ [] := by decide +kernel
  have uses : chain.Uses parser.settings.operators := by
    simp only [chain, Chain.Uses, LinksUse, Primary.Uses, ArgumentsUse, and_true, true_and]
    decide +kernel
  have same : chain.tree parser.settings.operators.strength = tree := by decide +kernel
  obtain ⟨rest, _, ran⟩ := (runs_of_tokens spared).2 chain uses parser [] rfl upcoming
    chain.ends_nil
  rw [same] at ran
  exact ⟨spared, rest, ran.eq_run, expression_tree parser spared ran.eq_run⟩

end Parser

end OpLang
