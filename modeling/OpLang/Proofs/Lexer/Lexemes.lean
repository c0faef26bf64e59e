import OpLang.Proofs.Lexer.Ahead

/-! # Lexemes

A lexeme is what a token looks like in a text: a word, a run of digits and points, or a sign, which
is any character that neither belongs to one of these nor separates them. A lexer that looks at a
lexeme answers its token, unless the characters behind it make the lexeme longer. So texts in which
blanks stand between the lexemes are cut back into their tokens.
-/

namespace OpLang

/-- A character that is a token by itself. -/
structure IsSign (char : Char) : Prop where
  notAlpha : char.isAlpha = false
  notPart : Literal.isPart char = false
  notBlank : isBlank char = false
  notComment : char ≠ '#'

instance (char : Char) : Decidable (IsSign char) :=
  decidable_of_iff (char.isAlpha = false ∧ Literal.isPart char = false ∧ isBlank char = false ∧
    char ≠ '#') ⟨fun ⟨alpha, part, blank, comment⟩ => ⟨alpha, part, blank, comment⟩,
      fun sign => ⟨sign.notAlpha, sign.notPart, sign.notBlank, sign.notComment⟩⟩

/-- Characters that spell a token. -/
inductive Lexeme : Token → List Char → Prop where
  | word {first : Char} {others : List Char} (alpha : first.isAlpha = true)
    (alphanum : ∀ char ∈ others, char.isAlphanum = true) :
    Lexeme (.ofWord (String.ofList (first :: others))) (first :: others)
  | literal {literal : List Char} (filled : literal ≠ [])
    (parts : ∀ char ∈ literal, Literal.isPart char = true) :
    Lexeme (.number (Literal.value literal)) literal
  | sign {char : Char} (sign : IsSign char) : Lexeme (.symbol char) [char]

/-- Whether a character behind the lexeme of a token belongs to it. -/
def Token.continues : Token → Char → Bool
  | .define, char | .declare, char | .name _, char => char.isAlphanum
  | .number _, char => Literal.isPart char
  | .symbol _, _ | .endOfInput, _ => false

/-- Characters that spell tokens one after the other, with blanks between them. -/
inductive Spaced : List Token → List Char → Prop where
  | nil {gap : List Char} (blank : ∀ char ∈ gap, isBlank char = true) : Spaced [] gap
  | cons {token : Token} {tokens : List Token} {gap chars others : List Char}
    (blank : ∀ char ∈ gap, isBlank char = true) (lexeme : Lexeme token chars)
    (separated : ∀ char ∈ others.head?, isBlank char = true) (behind : Spaced tokens others) :
    Spaced (token :: tokens) (gap ++ (chars ++ others))

/-- A token that some characters spell. -/
def Token.IsSpelled (token : Token) : Prop := ∃ chars, Lexeme token chars

theorem Spaced.blank {tokens : List Token} {chars : List Char} (spaced : Spaced tokens chars) :
    Spaced tokens (' ' :: chars) := by
  cases spaced with
  | nil blank => exact .nil (List.forall_mem_cons.mpr ⟨by decide, blank⟩)
  | cons blank lexeme separated behind =>
    exact .cons (List.forall_mem_cons.mpr ⟨by decide, blank⟩) lexeme separated behind

theorem exists_spaced {tokens : List Token} (spelled : ∀ token ∈ tokens, token.IsSpelled) :
    ∃ chars, Spaced tokens chars := by
  induction tokens with
  | nil => exact ⟨[], .nil (by simp)⟩
  | cons token tokens ih =>
    obtain ⟨⟨chars, lexeme⟩, others⟩ := List.forall_mem_cons.mp spelled
    obtain ⟨behind, spaced⟩ := ih others
    have separated : ∀ char ∈ (' ' :: behind).head?, isBlank char = true := by simp; decide
    exact ⟨[] ++ (chars ++ ' ' :: behind), .cons (by simp) lexeme separated spaced.blank⟩

theorem Token.continues_ofWord (word : String) (char : Char) :
    (Token.ofWord word).continues char = char.isAlphanum := by
  unfold Token.ofWord
  split
  · rfl
  · split <;> rfl

/-! ### Classes of characters -/

theorem bounds_of_isBlank {char : Char} (blank : isBlank char = true) :
    char.toNat ≤ 32 ∨ 133 ≤ char.toNat := by
  simp only [isBlank, blankRanges, List.any_cons, List.any_nil, Bool.or_eq_true, Bool.and_eq_true,
    decide_eq_true_eq, Bool.false_eq_true, or_false] at blank
  omega

theorem bounds_of_isAlpha {char : Char} (alpha : char.isAlpha = true) :
    65 ≤ char.toNat ∧ char.toNat ≤ 122 := by
  rcases Bool.or_eq_true_iff.mp alpha with upper | lower
  · obtain ⟨above, below⟩ := of_decide_eq_true upper
    have least : 65 ≤ char.toNat := UInt32.le_iff_toNat_le.mp above
    have greatest : char.toNat ≤ 90 := UInt32.le_iff_toNat_le.mp below
    omega
  · obtain ⟨above, below⟩ := Bool.and_eq_true_iff.mp lower
    have least : 97 ≤ char.toNat := UInt32.le_iff_toNat_le.mp (of_decide_eq_true above)
    have greatest : char.toNat ≤ 122 := UInt32.le_iff_toNat_le.mp (of_decide_eq_true below)
    omega

theorem bounds_of_isAlphanum {char : Char} (alphanum : char.isAlphanum = true) :
    48 ≤ char.toNat ∧ char.toNat ≤ 122 := by
  rcases Bool.or_eq_true_iff.mp alphanum with alpha | digit
  · have inside := bounds_of_isAlpha alpha
    omega
  · have inside : 48 ≤ char.toNat ∧ char.toNat ≤ 57 := Char.isDigit_iff_toNat.mp digit
    omega

theorem bounds_of_isPart {char : Char} (part : Literal.isPart char = true) :
    46 ≤ char.toNat ∧ char.toNat ≤ 57 := by
  rcases Bool.or_eq_true_iff.mp part with digit | point
  · have inside : 48 ≤ char.toNat ∧ char.toNat ≤ 57 := Char.isDigit_iff_toNat.mp digit
    omega
  · obtain rfl : char = '.' := by simpa using point
    decide

/-- Blanks make no lexeme longer. -/
theorem continues_of_isBlank (token : Token) {char : Char} (blank : isBlank char = true) :
    token.continues char = false := by
  have outside := bounds_of_isBlank blank
  have noWord : char.isAlphanum = false := by
    refine Bool.eq_false_iff.mpr fun alphanum => ?_
    have inside := bounds_of_isAlphanum alphanum
    omega
  have noLiteral : Literal.isPart char = false := by
    refine Bool.eq_false_iff.mpr fun part => ?_
    have inside := bounds_of_isPart part
    omega
  cases token with
  | define | declare | name => exact noWord
  | number => exact noLiteral
  | symbol | endOfInput => rfl

theorem Lexeme.ne_nil {token : Token} {chars : List Char} (lexeme : Lexeme token chars) :
    chars ≠ [] := by
  cases lexeme with
  | word | sign => exact List.cons_ne_nil _ _
  | literal filled => exact filled

/-- Neither blanks nor the beginnings of comments are parts of lexemes. -/
theorem Lexeme.solid_of_mem {token : Token} {chars : List Char} (lexeme : Lexeme token chars) :
    ∀ char ∈ chars, isBlank char = false ∧ char ≠ '#' := by
  intro char member
  have between (inside : 46 ≤ char.toNat ∧ char.toNat ≤ 122) :
      isBlank char = false ∧ char ≠ '#' := by
    refine ⟨Bool.eq_false_iff.mpr fun blank => ?_, ?_⟩
    · have outside := bounds_of_isBlank blank
      omega
    · rintro rfl
      exact absurd inside (by decide)
  cases lexeme with
  | word alpha alphanum =>
    apply between
    rcases List.mem_cons.mp member with rfl | member
    · have inside := bounds_of_isAlpha alpha
      omega
    · have inside := bounds_of_isAlphanum (alphanum char member)
      omega
  | literal _ parts =>
    apply between
    have inside := bounds_of_isPart (parts char member)
    omega
  | sign sign =>
    obtain rfl := List.mem_singleton.mp member
    exact ⟨sign.notBlank, sign.notComment⟩

/-- A lexeme begins with a character that is neither blank nor the beginning of a comment. -/
theorem Lexeme.eq_cons {token : Token} {chars : List Char} (lexeme : Lexeme token chars) :
    ∃ first others, chars = first :: others ∧ isBlank first = false ∧ first ≠ '#' := by
  obtain ⟨first, others, rfl⟩ := List.exists_cons_of_ne_nil lexeme.ne_nil
  exact ⟨first, others, rfl, lexeme.solid_of_mem first List.mem_cons_self⟩

theorem Lexeme.ne_endOfInput {token : Token} {chars : List Char} (lexeme : Lexeme token chars) :
    token ≠ .endOfInput := by
  cases lexeme with
  | word =>
    unfold Token.ofWord
    split
    · simp
    · split <;> simp
  | literal | sign => simp

/-- A character that is a token by itself spells it alone. -/
theorem Lexeme.eq_of_symbol {char : Char} {chars : List Char}
    (lexeme : Lexeme (.symbol char) chars) : chars = [char] := by
  generalize spelled : Token.symbol char = token at lexeme
  cases lexeme with
  | word =>
    unfold Token.ofWord at spelled
    split at spelled
    · contradiction
    · split at spelled <;> contradiction
  | literal => contradiction
  | sign =>
    obtain rfl := Token.symbol.inj spelled
    rfl

/-! ### Reading lexemes -/

/-- A test that a lexeme passes and the character behind it fails parts the two. -/
theorem part_of_test {test : Char → Bool} {chars others : List Char}
    (passes : ∀ char ∈ chars, test char = true)
    (fails : ∀ char ∈ others.head?, test char = false) :
    (chars ++ others).takeWhile test = chars ∧ (chars ++ others).dropWhile test = others := by
  rw [List.takeWhile_append_of_pos passes, List.dropWhile_append_of_pos passes]
  cases others with
  | nil => simp
  | cons char others =>
    have failed : ¬ test char = true := by simp [fails char rfl]
    rw [List.takeWhile_cons_of_neg failed, List.dropWhile_cons_of_neg failed, List.append_nil]
    exact ⟨rfl, rfl⟩

theorem head_dropWhile_fails {test : Char → Bool} {chars : List Char} :
    ∀ char ∈ (chars.dropWhile test).head?, test char = false := by
  intro char head
  have fails := List.head?_dropWhile_not test chars
  rw [Option.mem_def.mp head] at fails
  exact fails

namespace Lexer

variable {σ : Type} [CharSource σ] {lexer : Lexer σ} {token : Token} {chars others : List Char}

/-- A lexer that looks at a lexeme reads its token and nothing more. -/
theorem token_of_lexeme (lexeme : Lexeme token chars)
    (ends : ∀ char ∈ others.head?, token.continues char = false)
    (ahead : lexer.ahead = chars ++ others) :
    ∃ first, lexer.lookahead = some first ∧ first ≠ '#' ∧ (lexer.token first).1 = token ∧
      (lexer.token first).2.ahead = others := by
  obtain ⟨first, behind, whole, _, noComment⟩ := lexeme.eq_cons
  have looks : lexer.lookahead = some first := by
    rw [whole] at ahead
    exact (ahead_eq_cons_iff.mp ahead).1
  refine ⟨first, looks, noComment, ?_⟩
  cases lexeme with
  | @word char rest alpha alphanum =>
    obtain ⟨rfl, rfl⟩ := List.cons.inj whole
    simp only [Token.continues_ofWord] at ends
    have passes : ∀ other ∈ char :: rest, other.isAlphanum = true :=
      List.forall_mem_cons.mpr ⟨by simp [Char.isAlphanum, alpha], alphanum⟩
    obtain ⟨taken, left⟩ := part_of_test passes ends
    rw [Lexer.token, if_pos alpha]
    dsimp only
    rw [toList_takeWhile, ahead_takeWhile, ahead, taken, left]
    exact ⟨rfl, rfl⟩
  | literal filled parts =>
    have part : Literal.isPart first = true := parts first (by simp [whole])
    have noAlpha : ¬ first.isAlpha = true := by
      intro alpha
      have letter := bounds_of_isAlpha alpha
      have inside := bounds_of_isPart part
      omega
    obtain ⟨taken, left⟩ := part_of_test parts ends
    rw [Lexer.token, if_neg noAlpha, if_pos part]
    dsimp only
    rw [toList_takeWhile, ahead_takeWhile, ahead, taken, left]
    exact ⟨rfl, rfl⟩
  | @sign char sign =>
    obtain ⟨rfl, _⟩ := List.cons.inj whole
    rw [Lexer.token, if_neg (by simp [sign.notAlpha]), if_neg (by simp [sign.notPart])]
    exact ⟨rfl, (ahead_eq_cons_iff.mp ahead).2⟩

theorem next_of_lexeme (lexeme : Lexeme token chars)
    (ends : ∀ char ∈ others.head?, token.continues char = false)
    (ahead : lexer.ahead = chars ++ others) :
    lexer.next.1.token = token ∧ lexer.next.2.ahead = others := by
  obtain ⟨first, behind, whole, solid, _⟩ := lexeme.eq_cons
  have skipped : (lexer.skipWhile isBlank).mark.ahead = chars ++ others := by
    rw [ahead_mark, ahead_skipWhile, ahead, whole, List.cons_append]
    exact List.dropWhile_cons_of_neg (by simp [solid])
  obtain ⟨char, looks, noComment, read, left⟩ := token_of_lexeme lexeme ends skipped
  rw [next]
  dsimp only
  split
  · next none =>
    rw [none] at looks
    contradiction
  · next found some =>
    obtain rfl := Option.some.inj (looks.symm.trans some)
    rw [dif_neg noComment]
    exact ⟨read, left⟩

theorem next_of_blank (blank : ∀ char ∈ lexer.ahead, isBlank char = true) :
    lexer.next.1.token = .endOfInput := by
  have looks : (lexer.skipWhile isBlank).mark.lookahead = none := by
    rw [← ahead_eq_nil_iff, ahead_mark, ahead_skipWhile]
    have parted : (lexer.ahead ++ []).dropWhile isBlank = [] := (part_of_test blank (by simp)).2
    simpa using parted
  rw [next]
  dsimp only
  split
  · rfl
  · next found some =>
    rw [some] at looks
    contradiction

end Lexer

end OpLang
