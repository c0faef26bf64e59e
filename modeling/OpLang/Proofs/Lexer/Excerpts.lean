import OpLang.Proofs.Lexer.Drawing

/-! # Beginnings of sources

A source that may never end is known by its answers. A lexer can only have seen a beginning of it:
what it does follows from the answers that it has had, and a longer beginning leads to the same.
-/

namespace OpLang

/-- The beginning of a source that may never end. It answers as the source does until it has been
asked as often as the limit says, and from then on `none`. -/
structure Excerpt (answers : Nat → Option Char) where
  limit : Nat
  asked : Nat
deriving Repr

namespace Excerpt

variable {answers : Nat → Option Char}

/-- An excerpt that has not been asked yet. -/
def upTo (answers : Nat → Option Char) (limit : Nat) : Excerpt answers := ⟨limit, 0⟩

/-- The excerpt with another limit. -/
def within (limit : Nat) (excerpt : Excerpt answers) : Excerpt answers := { excerpt with limit }

instance : CharSource (Excerpt answers) where
  next excerpt :=
    (if excerpt.asked < excerpt.limit then answers excerpt.asked else none,
      { excerpt with asked := excerpt.asked + 1 })
  remaining excerpt := excerpt.limit - excerpt.asked
  failure? _ := none
  remaining_next_lt {excerpt _} answered := by
    split at answered
    · dsimp only
      omega
    · contradiction

theorem after_eq (questions : Nat) (excerpt : Excerpt answers) :
    CharSource.after questions excerpt = { excerpt with asked := excerpt.asked + questions } := by
  induction questions with
  | zero => rfl
  | succ questions ih =>
    rw [CharSource.after_succ, ih]
    rfl

/-- A larger limit makes no difference to an answer inside the smaller one. -/
theorem next_within {excerpt : Excerpt answers} {limit : Nat}
    (inside : excerpt.asked < excerpt.limit) (larger : excerpt.limit ≤ limit) :
    CharSource.next (excerpt.within limit) =
      ((CharSource.next excerpt).1, (CharSource.next excerpt).2.within limit) := by
  have wider : excerpt.asked < limit := Nat.lt_of_lt_of_le inside larger
  exact Prod.ext ((if_pos wider).trans (if_pos inside).symm) rfl

end Excerpt

namespace Lexer

section Equations

variable {σ : Type} [CharSource σ]

theorem skipWhile_eq (test : Char → Bool) (lexer : Lexer σ) :
    lexer.skipWhile test = match lexer.lookahead with
      | some char => if test char then lexer.bump.skipWhile test else lexer
      | none => lexer := by
  conv => lhs; rw [skipWhile]
  split <;> simp_all

theorem takeWhile_eq (test : Char → Bool) (taken : Array Char) (lexer : Lexer σ) :
    lexer.takeWhile test taken = match lexer.lookahead with
      | some char =>
        if test char then lexer.bump.takeWhile test (taken.push char) else (taken, lexer)
      | none => (taken, lexer) := by
  conv => lhs; rw [takeWhile]
  split <;> simp_all

theorem next_eq {lexer marked : Lexer σ} (skipped : (lexer.skipWhile isBlank).mark = marked) :
    lexer.next = match marked.lookahead with
      | none => (⟨.endOfInput, marked.start⟩, marked)
      | some char =>
        if char = '#' then (marked.skipWhile inComment).next
        else (⟨(marked.token char).1, marked.start⟩, (marked.token char).2) := by
  subst skipped
  conv => lhs; rw [next]
  dsimp only
  split
  · next looks => rw [looks]
  · next char looks =>
    rw [looks]
    dsimp only
    split <;> rfl

end Equations

variable {answers : Nat → Option Char} {limit : Nat} {lexer rest : Lexer (Excerpt answers)}

/-- The lexer over an excerpt with another limit. -/
def within (limit : Nat) (lexer : Lexer (Excerpt answers)) : Lexer (Excerpt answers) :=
  { lexer with source := lexer.source.within limit }

theorem lookahead_within (limit : Nat) (lexer : Lexer (Excerpt answers)) :
    (lexer.within limit).lookahead = lexer.lookahead := rfl

/-- What a lexer has asked lies inside its excerpt, and the excerpt inside one with this limit. -/
def Inside (limit : Nat) (lexer : Lexer (Excerpt answers)) : Prop :=
  lexer.source.asked ≤ lexer.source.limit ∧ lexer.source.limit ≤ limit

theorem Draws.inside (draws : lexer.Draws rest) (inside : rest.Inside limit) :
    lexer.Inside limit := by
  obtain ⟨passed, _, source⟩ := draws
  rw [Excerpt.after_eq] at source
  rw [Inside, source] at inside
  exact ⟨Nat.le_of_add_right_le inside.1, inside.2⟩

theorem Draws.limit_eq (draws : lexer.Draws rest) :
    rest.source.limit = lexer.source.limit := by
  obtain ⟨passed, _, source⟩ := draws
  rw [source, Excerpt.after_eq]

theorem bump_within (inside : lexer.bump.Inside limit) :
    (lexer.within limit).bump = lexer.bump.within limit := by
  rw [Inside, source_bump] at inside
  have same := Excerpt.next_within inside.1 inside.2
  simp only [bump, within, same]
  split <;> rfl

theorem skipWhile_within (test : Char → Bool) (inside : (lexer.skipWhile test).Inside limit) :
    (lexer.within limit).skipWhile test = (lexer.skipWhile test).within limit := by
  fun_induction skipWhile test lexer with
  | case1 lexer char looks passes ih =>
    have bumped := bump_within ((draws_skipWhile test lexer.bump).inside inside)
    rw [skipWhile_eq, lookahead_within, looks]
    rw [← ih inside, ← bumped]
    exact if_pos passes
  | case2 lexer char looks fails =>
    rw [skipWhile_eq, lookahead_within, looks]
    exact if_neg fails
  | case3 lexer looks => rw [skipWhile_eq, lookahead_within, looks]

theorem takeWhile_within (test : Char → Bool) (taken : Array Char)
    (inside : (lexer.takeWhile test taken).2.Inside limit) :
    (lexer.within limit).takeWhile test taken =
      ((lexer.takeWhile test taken).1, (lexer.takeWhile test taken).2.within limit) := by
  fun_induction takeWhile test taken lexer with
  | case1 taken lexer char looks passes ih =>
    have bumped := bump_within ((draws_takeWhile test (taken.push char) lexer.bump).inside inside)
    rw [takeWhile_eq, lookahead_within, looks]
    rw [← ih inside, ← bumped]
    exact if_pos passes
  | case2 taken lexer char looks fails =>
    rw [takeWhile_eq, lookahead_within, looks]
    exact if_neg fails
  | case3 taken lexer looks =>
    rw [takeWhile_eq, lookahead_within, looks]

theorem token_within (char : Char) (inside : (lexer.token char).2.Inside limit) :
    (lexer.within limit).token char =
      ((lexer.token char).1, (lexer.token char).2.within limit) := by
  unfold token at inside ⊢
  by_cases alpha : char.isAlpha = true
  · simp only [alpha, if_true] at inside ⊢
    simp only [takeWhile_within Char.isAlphanum #[] inside]
  · by_cases part : Literal.isPart char = true
    · simp only [alpha, part, if_true, if_false, Bool.false_eq_true] at inside ⊢
      simp only [takeWhile_within Literal.isPart #[] inside]
    · simp only [alpha, part, if_false, Bool.false_eq_true] at inside ⊢
      rw [bump_within inside]

/-- The blanks in front of a token are inside of what a lexer has asked behind it. -/
theorem mark_within (inside : (lexer.skipWhile isBlank).mark.Inside limit) :
    ((lexer.within limit).skipWhile isBlank).mark = (lexer.skipWhile isBlank).mark.within limit :=
  congrArg mark (skipWhile_within isBlank inside)

theorem next_within (inside : lexer.next.2.Inside limit) :
    (lexer.within limit).next = (lexer.next.1, lexer.next.2.within limit) := by
  fun_induction next lexer with
  | case1 lexer marked looks =>
    have skipped : _ = marked.within limit := mark_within inside
    rw [next_eq skipped, lookahead_within, looks]
    rfl
  | case2 lexer marked looks ih =>
    have there : (marked.skipWhile inComment).Inside limit := (draws_next _).inside inside
    have before : marked.Inside limit := (draws_skipWhile inComment marked).inside there
    have skipped : _ = marked.within limit := mark_within before
    rw [next_eq skipped, lookahead_within, looks]
    simp only [if_true, skipWhile_within inComment there, ih inside]
  | case3 lexer marked char looks other token rest read =>
    have last : (marked.token char).2.Inside limit := by rwa [read]
    have before : marked.Inside limit := (draws_token looks).inside last
    have skipped : _ = marked.within limit := mark_within before
    rw [next_eq skipped, lookahead_within, looks]
    simp only [if_neg other, token_within char last, read]
    rfl

end Lexer

end OpLang
