import OpLang.Item
import OpLang.Proofs.Grammar.Chain

/-! # Programs as they are written

A program is any sequence of semicolons and clauses: definitions, declarations and bare
expressions, which need nothing between them. The same tokens may be cut into clauses in several
ways, because a variable in front of a parenthesis may be the end of a clause or the name of a
call. `exists_separated` turns the first reading into the second, so that every program is also cut
in a way in which no clause can take more than it has.
-/

namespace OpLang

/-- The prototype of an item. -/
def Item.prototype : Item → Prototype
  | .declaration prototype => prototype
  | .function defined => defined.prototype

namespace Grammar

/-- An item as it is written. -/
inductive Clause where
  | definition (prototype : Prototype) (body : Chain)
  | declaration (prototype : Prototype)
  | expression (body : Chain)

/-- The tokens of a prototype: its name and its parameters in parentheses, without commas. -/
def prototypeTokens (prototype : Prototype) : List Token :=
  .name prototype.name :: .symbol '(' :: (prototype.parameters.map .name ++ [.symbol ')'])

/-- The parameters of a prototype are distinct, unless the settings allow otherwise. -/
def AllowsPrototype (settings : Settings) (prototype : Prototype) : Prop :=
  settings.allowRepeatedParameters = false → prototype.parameters.Nodup

namespace Clause

/-- The tokens of a clause. -/
def tokens : Clause → List Token
  | definition prototype body => .define :: (prototypeTokens prototype ++ body.tokens)
  | declaration prototype => .declare :: prototypeTokens prototype
  | expression body => body.tokens

/-- The kind of item that a clause is. -/
def kind : Clause → ItemKind
  | definition _ _ => .definition
  | declaration _ => .declaration
  | expression _ => .expression

/-- The item that a clause writes. -/
def item (strength : Char → Int) : Clause → Item
  | definition prototype body => .function ⟨prototype, body.tree strength⟩
  | declaration prototype => .declaration prototype
  | expression body => .function (.ofExpr (body.tree strength))

/-- A clause of the language that the settings decide on. -/
def Fits (settings : Settings) : Clause → Prop
  | definition prototype body =>
    AllowsPrototype settings prototype ∧ body.Uses settings.operators
  | declaration prototype => AllowsPrototype settings prototype
  | expression body => body.Uses settings.operators

/-- Tokens that cannot make a longer clause out of one. -/
def Ends (settings : Settings) (others : List Token) : Clause → Prop
  | definition _ body | expression body => body.Ends settings.operators others
  | declaration _ => True

end Clause

/-- A part of a program: a semicolon or a clause. -/
inductive Part where
  | semicolon
  | clause (written : Clause)

namespace Part

/-- The tokens of a part. -/
def tokens : Part → List Token
  | semicolon => [.symbol ';']
  | clause written => written.tokens

/-- A part of a program of the language that the settings decide on. -/
def Fits (settings : Settings) : Part → Prop
  | semicolon => True
  | clause written => written.Fits settings

/-- The item of a part, unless it is a semicolon. -/
def item? (strength : Char → Int) : Part → Option Item
  | semicolon => none
  | clause written => some (written.item strength)

/-- Tokens that cannot make a longer part out of one. -/
def Ends (settings : Settings) (others : List Token) : Part → Prop
  | semicolon => True
  | clause written => written.Ends settings others

end Part

/-- The tokens of a program. -/
def programTokens (parts : List Part) : List Token := parts.flatMap Part.tokens

/-- No part can take tokens of those behind it. -/
def Separated (settings : Settings) : List Part → Prop
  | [] => True
  | part :: parts => part.Ends settings (programTokens parts) ∧ Separated settings parts

/-- A list of tokens is a program of the language that the settings decide on. -/
def Derives (settings : Settings) (tokens : List Token) : Prop :=
  ∃ parts : List Part, (∀ part ∈ parts, part.Fits settings) ∧ programTokens parts = tokens

@[simp] theorem programTokens_nil : programTokens [] = [] := rfl

@[simp] theorem programTokens_cons (part : Part) (parts : List Part) :
    programTokens (part :: parts) = part.tokens ++ programTokens parts := List.flatMap_cons

variable {operators : Operators} {settings : Settings}

theorem derives_nil : Derives settings [] := ⟨[], by simp, rfl⟩

theorem Derives.semicolon {tokens : List Token} (derives : Derives settings tokens) :
    Derives settings (.symbol ';' :: tokens) := by
  obtain ⟨parts, fits, rfl⟩ := derives
  exact ⟨.semicolon :: parts, List.forall_mem_cons.mpr ⟨trivial, fits⟩, rfl⟩

theorem Derives.clause {tokens : List Token} (derives : Derives settings tokens) {clause : Clause}
    (clauseFits : clause.Fits settings) : Derives settings (clause.tokens ++ tokens) := by
  obtain ⟨parts, fits, rfl⟩ := derives
  exact ⟨.clause clause :: parts, List.forall_mem_cons.mpr ⟨clauseFits, fits⟩, rfl⟩

/-- No clause is empty or begins with a semicolon. -/
theorem Clause.tokens_eq_cons (clause : Clause) :
    ∃ token others, clause.tokens = token :: others ∧ token ≠ .symbol ';' := by
  cases clause with
  | definition prototype body => exact ⟨_, _, rfl, by simp⟩
  | declaration prototype => exact ⟨_, _, rfl, by simp⟩
  | expression body =>
    obtain ⟨token, others, tokens, opens⟩ := body.tokens_eq_cons
    refine ⟨token, others, tokens, ?_⟩
    rintro rfl
    simp [Opens] at opens

theorem Clause.ends_nil (clause : Clause) : clause.Ends settings [] := by
  cases clause with
  | definition _ body | expression body => exact body.ends_nil
  | declaration => trivial

/-- A chain that goes on like one that begins with parentheses ends where that one does. -/
private theorem ends_of_call {whole : Chain} {name : String} {inner : Chain}
    {links : List (Char × Primary)} {others : List Token}
    (last : lastOperand whole.first whole.links = lastOperand (.call name [inner]) links)
    (ends : (⟨.group inner, links⟩ : Chain).Ends operators others) :
    whole.Ends operators others := by
  refine ⟨ends.noOperator, ?_⟩
  rw [last]
  cases links with
  | nil => simp [lastOperand, Primary.Ends]
  | cons link links => exact ends.noArguments

/-- A variable at the end of a chain and a parenthesis at the beginning of the next one may as well
be a call. -/
theorem Chain.exists_joined {chain : Chain} {name : String} {inner : Chain}
    {links : List (Char × Primary)} (last : lastOperand chain.first chain.links = .variable name)
    (uses : chain.Uses operators) (otherUses : (⟨.group inner, links⟩ : Chain).Uses operators) :
    ∃ whole : Chain, whole.Uses operators ∧
      whole.tokens = chain.tokens ++ (⟨.group inner, links⟩ : Chain).tokens ∧
      ∀ others, (⟨.group inner, links⟩ : Chain).Ends operators others →
        whole.Ends operators others := by
  rcases chain with ⟨first, before⟩
  obtain ⟨firstUses, beforeUse⟩ := uses
  obtain ⟨innerUses, linksUse⟩ := otherUses
  have callUses : (Primary.call name [inner]).Uses operators := ⟨innerUses, trivial⟩
  have callTokens : (Primary.call name [inner]).tokens =
      (Primary.variable name).tokens ++ (Primary.group inner).tokens := rfl
  dsimp only at last
  rcases List.eq_nil_or_concat before with rfl | ⟨init, link, rfl⟩
  · rw [lastOperand] at last
    subst last
    refine ⟨⟨.call name [inner], links⟩, ⟨callUses, linksUse⟩, ?_, fun others => ends_of_call rfl⟩
    simp only [Chain.tokens, callTokens, linkTokens, List.append_assoc, List.append_nil]
  · rcases link with ⟨operator, operand⟩
    rw [List.concat_eq_append] at *
    rw [lastOperand_append] at last
    obtain rfl : operand = .variable name := last
    refine ⟨⟨first, init ++ (operator, .call name [inner]) :: links⟩, ⟨firstUses, ?_⟩, ?_,
      fun others => ends_of_call (lastOperand_append _ _ _)⟩
    · rw [linksUse_iff] at beforeUse linksUse ⊢
      obtain ⟨initUse, lastUses⟩ := List.forall_mem_append.mp beforeUse
      have effective := (lastUses (operator, .variable name) (by simp)).1
      exact List.forall_mem_append.mpr
        ⟨initUse, List.forall_mem_cons.mpr ⟨⟨effective, callUses⟩, linksUse⟩⟩
    · simp only [Chain.tokens, linkTokens_append, linkTokens, callTokens, List.append_assoc,
        List.append_nil, List.cons_append]

/-- A program that begins with a mark begins with a semicolon or with a parenthesis of a bare
expression. -/
theorem mark_of_programTokens {parts : List Part} {mark : Char}
    (head : (programTokens parts).head? = some (.symbol mark)) :
    mark = ';' ∨ mark = '(' ∧ ∃ (inner : Chain) (links : List (Char × Primary))
      (others : List Part), parts = .clause (.expression ⟨.group inner, links⟩) :: others := by
  cases parts with
  | nil => simp at head
  | cons part parts =>
    rw [programTokens_cons] at head
    cases part with
    | semicolon => exact .inl (by simpa [Part.tokens] using head.symm)
    | clause written =>
      cases written with
      | definition prototype body => simp [Part.tokens, Clause.tokens] at head
      | declaration prototype => simp [Part.tokens, Clause.tokens] at head
      | expression body =>
        rcases body with ⟨first, links⟩
        cases first with
        | number value => simp [Part.tokens, Clause.tokens, Chain.tokens, Primary.tokens] at head
        | «variable» name => simp [Part.tokens, Clause.tokens, Chain.tokens, Primary.tokens] at head
        | call callee arguments =>
          simp [Part.tokens, Clause.tokens, Chain.tokens, Primary.tokens] at head
        | group inner =>
          refine .inr ⟨?_, inner, links, parts, rfl⟩
          simpa [Part.tokens, Clause.tokens, Chain.tokens, Primary.tokens] using head.symm

/-- Where a chain does not end, the rest of a program goes on with a parenthesis behind its last
variable. -/
theorem Chain.joins_of_not_ends {chain : Chain} {parts : List Part}
    (spared : operators.Spares ['(', ')', ',', ';'])
    (unended : ¬ chain.Ends operators (programTokens parts)) :
    ∃ (name : String) (inner : Chain) (links : List (Char × Primary)) (others : List Part),
      lastOperand chain.first chain.links = .variable name ∧
      parts = .clause (.expression ⟨.group inner, links⟩) :: others := by
  have noOperator : ∀ char, (programTokens parts).head? = some (.symbol char) →
      ¬ operators.Effective char := by
    intro char head
    rcases mark_of_programTokens head with rfl | ⟨rfl, _⟩
    · exact spared.not_effective (by simp)
    · exact spared.not_effective (by simp)
  have call : ¬ (lastOperand chain.first chain.links).Ends (programTokens parts) :=
    fun ends => unended ⟨noOperator, ends⟩
  simp only [Primary.Ends, Classical.not_forall, ne_eq, Decidable.not_not] at call
  obtain ⟨name, last, head⟩ := call
  rcases mark_of_programTokens head with other | ⟨_, inner, links, others, rfl⟩
  · exact absurd other (by decide)
  · exact ⟨name, inner, links, others, last, rfl⟩

/-- A clause that does not end where a program goes on takes its first clause as well. -/
private theorem Clause.exists_extended {clause : Clause} {parts : List Part}
    (spared : settings.operators.Spares ['(', ')', ',', ';']) (fits : clause.Fits settings)
    (partsFit : ∀ part ∈ parts, part.Fits settings) (separated : Separated settings parts)
    (unended : ¬ clause.Ends settings (programTokens parts)) :
    ∃ (whole : Clause) (others : List Part), whole.Fits settings ∧
      (∀ part ∈ others, part.Fits settings) ∧ Separated settings others ∧
      whole.Ends settings (programTokens others) ∧
      whole.tokens ++ programTokens others = clause.tokens ++ programTokens parts := by
  have extended (body : Chain) (uses : body.Uses settings.operators)
      (unended : ¬ body.Ends settings.operators (programTokens parts)) :
      ∃ (whole : Chain) (others : List Part), whole.Uses settings.operators ∧
        (∀ part ∈ others, part.Fits settings) ∧ Separated settings others ∧
        whole.Ends settings.operators (programTokens others) ∧
        whole.tokens ++ programTokens others = body.tokens ++ programTokens parts := by
    obtain ⟨name, inner, links, others, last, rfl⟩ := Chain.joins_of_not_ends spared unended
    obtain ⟨firstFits, othersFit⟩ := List.forall_mem_cons.mp partsFit
    obtain ⟨whole, wholeUses, tokens, ends⟩ := Chain.exists_joined last uses firstFits
    refine ⟨whole, others, wholeUses, othersFit, separated.2, ends _ separated.1, ?_⟩
    rw [tokens, List.append_assoc]
    rfl
  cases clause with
  | definition prototype body =>
    obtain ⟨whole, others, uses, othersFit, othersSeparated, ends, tokens⟩ :=
      extended body fits.2 unended
    refine ⟨.definition prototype whole, others, ⟨fits.1, uses⟩, othersFit, othersSeparated, ends,
      ?_⟩
    simp only [Clause.tokens, List.cons_append, List.append_assoc, tokens]
  | declaration prototype => exact absurd trivial unended
  | expression body =>
    obtain ⟨whole, others, uses, othersFit, othersSeparated, ends, tokens⟩ :=
      extended body fits unended
    exact ⟨.expression whole, others, uses, othersFit, othersSeparated, ends, tokens⟩

/-- Every program can be cut so that no part can take tokens of those behind it. -/
theorem exists_separated {parts : List Part}
    (spared : settings.operators.Spares ['(', ')', ',', ';'])
    (fits : ∀ part ∈ parts, part.Fits settings) :
    ∃ others : List Part, (∀ part ∈ others, part.Fits settings) ∧ Separated settings others ∧
      programTokens others = programTokens parts := by
  -- The parts behind are separated first, so only the first part can still take anything.
  induction parts with
  | nil => exact ⟨[], by simp, trivial, rfl⟩
  | cons part parts ih =>
    obtain ⟨partFits, partsFit⟩ := List.forall_mem_cons.mp fits
    obtain ⟨others, othersFit, separated, tokens⟩ := ih partsFit
    by_cases ends : part.Ends settings (programTokens others)
    · refine ⟨part :: others, List.forall_mem_cons.mpr ⟨partFits, othersFit⟩, ⟨ends, separated⟩, ?_⟩
      rw [programTokens_cons, programTokens_cons, tokens]
    · cases part with
      | semicolon => exact absurd trivial ends
      | clause written =>
        obtain ⟨whole, behind, wholeFits, behindFit, behindSeparated, wholeEnds, same⟩ :=
          written.exists_extended spared partFits othersFit separated ends
        refine ⟨.clause whole :: behind, List.forall_mem_cons.mpr ⟨wholeFits, behindFit⟩,
          ⟨wholeEnds, behindSeparated⟩, ?_⟩
        rw [programTokens_cons, programTokens_cons, ← tokens]
        exact same

end Grammar

end OpLang
