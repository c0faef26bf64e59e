/-! # Sources of characters

A source hands out one character at a time until it has no more to give. It promises nothing about
what it answers after its first `none`; whoever reads from it is expected to stop there.
-/

namespace OpLang

/-- A source of characters that cannot go on forever. -/
class CharSource (σ : Type) where
  /-- The next character, if there is one, and the source after the question. -/
  next : σ → Option Char × σ
  /-- A bound on the characters still to come. -/
  remaining : σ → Nat
  /-- The reading failure that has ended the source, if one has. -/
  failure? : σ → Option String
  remaining_next_lt : ∀ {source : σ} {char : Char},
    (next source).1 = some char → remaining (next source).2 < remaining source

/-- The characters of a text, from the first to the last. -/
instance : CharSource (List Char) where
  next
    | [] => (none, [])
    | char :: rest => (some char, rest)
  remaining := List.length
  failure? _ := none
  remaining_next_lt {source} := by cases source <;> simp

/-- A source together with how often it has been asked. -/
structure Metered (σ : Type) where
  source : σ
  pulled : Nat
deriving Repr

namespace Metered

variable {σ : Type}

/-- A source that has not been asked yet. -/
def ofSource (source : σ) : Metered σ := ⟨source, 0⟩

instance [CharSource σ] : CharSource (Metered σ) where
  next metered :=
    let (char?, source) := CharSource.next metered.source
    (char?, ⟨source, metered.pulled + 1⟩)
  remaining metered := CharSource.remaining metered.source
  failure? metered := CharSource.failure? metered.source
  remaining_next_lt answered := CharSource.remaining_next_lt answered

end Metered

end OpLang
