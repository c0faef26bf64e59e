import OpLang.Proofs.Grammar.Program

/-! # Repeated parameters in a sequence of tokens

A prototype stands behind a reserved word: a name, a parenthesis and the parameters. So whether a
token repeats a parameter can be told from the tokens in front of it, without any parsing. A program
whose prototypes have distinct parameters has no such token, because reserved words stand nowhere
but in front of its prototypes.
-/

namespace OpLang.Grammar

/-- The reserved words, behind which a prototype stands. -/
def IsWord (token : Token) : Prop := token = .define ∨ token = .declare

/-- The tokens end inside the parentheses of a prototype, behind these parameters. -/
def EndsInside (tokens : List Token) (names : List String) : Prop :=
  ∃ before word function, IsWord word ∧
    tokens = before ++ word :: .name function :: .symbol '(' :: names.map .name

/-- Behind some tokens a token repeats a parameter of the prototype that it stands in. -/
def Repeats (tokens : List Token) (token : Token) : Prop :=
  ∃ names name, EndsInside tokens names ∧ name ∈ names ∧ token = .name name

/-- Whatever parameters stand behind a reserved word, they are distinct. -/
def Distinct (tokens : List Token) : Prop :=
  ∀ (before : List Token) (word : Token) (function : String) (names : List String)
    (others : List Token), IsWord word →
      tokens = before ++ word :: .name function :: .symbol '(' :: (names.map .name ++ others) →
        names.Nodup

variable {tokens others : List Token} {token : Token}

/-- Among tokens with distinct parameters none repeats another one. -/
theorem Distinct.not_repeats {front behind : List Token} (distinct : Distinct tokens)
    (split : tokens = front ++ token :: behind) : ¬ Repeats front token := by
  rintro ⟨names, name, ⟨before, word, function, isWord, rfl⟩, member, rfl⟩
  have nodup := distinct before word function (names ++ [name]) behind isWord (by simp [split])
  exact (List.nodup_append.mp nodup).2.2 name member name (by simp) rfl

theorem distinct_nil : Distinct [] := by
  intro before word function names others _ whole
  simp at whole

/-- A token that is no reserved word has no parameters behind it. -/
theorem Distinct.cons (other : ¬ IsWord token) (distinct : Distinct tokens) :
    Distinct (token :: tokens) := by
  intro before word function names others isWord whole
  cases before with
  | nil =>
    obtain ⟨rfl, _⟩ := List.cons.inj whole
    exact absurd isWord other
  | cons first before =>
    exact distinct before word function names others isWord (List.cons.inj whole).2

theorem Distinct.append {front : List Token} (plain : ∀ token ∈ front, ¬ IsWord token)
    (distinct : Distinct tokens) : Distinct (front ++ tokens) := by
  induction front with
  | nil => exact distinct
  | cons token front ih =>
    obtain ⟨other, plain⟩ := List.forall_mem_cons.mp plain
    exact (ih plain).cons other

/-- Names in front of something else are a beginning of all the names there. -/
private theorem prefix_of_names {names all : List String}
    (ends : ∀ name, others.head? ≠ some (.name name))
    (same : all.map .name ++ others = names.map .name ++ tokens) : names <+: all := by
  induction names generalizing all with
  | nil => exact List.nil_prefix
  | cons name names ih =>
    cases all with
    | nil => exact absurd (congrArg List.head? same) (ends name)
    | cons first all =>
      obtain ⟨head, behind⟩ := List.cons.inj same
      obtain rfl := Token.name.inj head
      exact (List.prefix_cons_inj first).mpr (ih behind)

/-- A prototype with distinct parameters may stand in front. -/
theorem Distinct.prototype (word : Token) (function : String) {names : List String}
    (nodup : names.Nodup) (ends : ∀ name, others.head? ≠ some (.name name))
    (distinct : Distinct others) :
    Distinct (word :: .name function :: .symbol '(' :: (names.map .name ++ others)) := by
  have plain : ∀ token ∈ [.name function, .symbol '('] ++ names.map .name, ¬ IsWord token := by
    simp [IsWord]
  intro before word' function' names' others' isWord whole
  cases before with
  | nil =>
    simp only [List.nil_append, List.cons.injEq] at whole
    obtain ⟨_, _, _, same⟩ := whole
    exact nodup.sublist (prefix_of_names ends same).sublist
  | cons first before =>
    rw [List.cons_append] at whole
    have behind := (List.cons.inj whole).2
    refine distinct.append plain before word' function' names' others' isWord ?_
    rw [← behind, List.append_assoc]
    rfl

/-! ### Programs -/

/-- No expression has a reserved word in it. -/
private theorem not_isWord_tokens :
    (∀ primary : Primary, ∀ token ∈ primary.tokens, ¬ IsWord token) ∧
      ∀ chain : Chain, ∀ token ∈ chain.tokens, ¬ IsWord token := by
  apply nesting_induction
  case number | «variable» => simp [Primary.tokens, IsWord]
  case call =>
    intro callee arguments ih token member
    rw [Primary.tokens] at member
    simp only [List.mem_cons, List.mem_append, List.not_mem_nil, or_false] at member
    rcases member with rfl | rfl | member | rfl
    · simp [IsWord]
    · simp [IsWord]
    · rcases mem_argumentTokens member with rfl | ⟨argument, present, inside⟩
      · simp [IsWord]
      · exact ih argument present token inside
    · simp [IsWord]
  case group =>
    intro inner ih token member
    rw [Primary.tokens] at member
    simp only [List.mem_cons, List.mem_append, List.not_mem_nil, or_false] at member
    rcases member with rfl | member | rfl
    · simp [IsWord]
    · exact ih token member
    · simp [IsWord]
  case chain =>
    intro first links firstPlain linksPlain token member
    rcases List.mem_append.mp member with member | member
    · exact firstPlain token member
    · obtain ⟨link, present, rfl | inside⟩ := mem_linkTokens member
      · simp [IsWord]
      · exact linksPlain link present token inside

/-- A part of a strict program may stand in front. -/
theorem Distinct.part {settings : Settings} {part : Part}
    (strict : settings.allowRepeatedParameters = false) (fits : part.Fits settings)
    (distinct : Distinct others) : Distinct (part.tokens ++ others) := by
  have semicolon : ¬ IsWord (.symbol ';') := by simp [IsWord]
  have closing : ¬ IsWord (.symbol ')') := by simp [IsWord]
  have body (chain : Chain) : Distinct (chain.tokens ++ others) :=
    distinct.append (not_isWord_tokens.2 chain)
  cases part with
  | semicolon => exact distinct.cons semicolon
  | clause written =>
    cases written with
    | definition prototype chain =>
      have whole := Distinct.prototype .define prototype.name
        (fits.1 strict) (by simp) ((body chain).cons closing)
      simpa [Part.tokens, Clause.tokens, prototypeTokens] using whole
    | declaration prototype =>
      have whole := Distinct.prototype .declare prototype.name
        (fits strict) (by simp) (distinct.cons closing)
      simpa [Part.tokens, Clause.tokens, prototypeTokens] using whole
    | expression chain => exact body chain

theorem Distinct.program {settings : Settings} {parts : List Part}
    (strict : settings.allowRepeatedParameters = false)
    (fits : ∀ part ∈ parts, part.Fits settings) (distinct : Distinct others) :
    Distinct (programTokens parts ++ others) := by
  induction parts with
  | nil => exact distinct
  | cons part parts ih =>
    obtain ⟨first, fits⟩ := List.forall_mem_cons.mp fits
    rw [programTokens_cons, List.append_assoc]
    exact (ih fits).part strict first

end OpLang.Grammar
