import Mathlib.Data.List.Induction
import OpLang.Proofs.Lexer.Excerpts
import OpLang.Proofs.Lexer.Places

/-! # One character ahead

A lexer may be asked for located tokens and for tokens that stop at the end of input, in any order.
Either way it has asked its source for nothing before the first call, and then with each token for
the characters up to the end of its lexeme and for the one behind them. The first `none` is the last
answer it takes, whatever the source would say next, and from then on the input has ended.

A source that never ends is read like its beginnings: what a lexer does follows from the answers it
has had so far.
-/

namespace OpLang

/-- Up to its first `none`, a source answers with the characters that are ahead. -/
theorem CharSource.next_after {σ : Type} [CharSource σ] {source : σ} {questions : Nat}
    (early : questions ≤ (ahead source).length) :
    (next (after questions source)).1 = (ahead source)[questions]? := by
  induction questions generalizing source with
  | zero =>
    cases answer : (next source).1 with
    | none => rw [ahead_of_none answer]; exact answer
    | some char => rw [ahead_of_some answer]; exact answer
  | succ questions ih =>
    cases answer : (next source).1 with
    | none =>
      rw [ahead_of_none answer] at early
      contradiction
    | some char =>
      rw [ahead_of_some answer] at early ⊢
      rw [List.getElem?_cons_succ]
      exact ih (Nat.le_of_succ_le_succ early)

namespace Segmentation

variable {cut : Segmentation} {calls index : Nat}

theorem reach_le (cut : Segmentation) (index : Nat) : cut.reach index ≤ cut.chars.length := by
  by_cases inside : index < cut.segments.length
  · have split := congrArg (List.flatMap fun segment => segment.gap ++ segment.lexeme)
      (List.take_append_drop (index + 1) cut.segments)
    rw [List.flatMap_append] at split
    rw [reach, if_pos inside, chars, ← split, List.length_append, List.length_append]
    omega
  · exact Nat.le_of_eq (reach_of_length_le (Nat.not_lt.mp inside))

/-- How often a source that is cut has been asked after some calls. -/
def asked (cut : Segmentation) : Nat → Nat
  | 0 => 0
  | calls + 1 => cut.reach calls + 1

/-- A call that finds no lexeme asks for the end of the input, unless that has been asked for. -/
theorem asked_of_length_lt (past : cut.segments.length < calls) :
    cut.asked calls = cut.chars.length + 1 := by
  cases calls with
  | zero => contradiction
  | succ calls => exact congrArg (· + 1) (reach_of_length_le (Nat.le_of_lt_succ past))

theorem asked_le (cut : Segmentation) (calls : Nat) : cut.asked calls ≤ cut.chars.length + 1 := by
  cases calls with
  | zero => exact Nat.zero_le _
  | succ calls => exact Nat.succ_le_succ (cut.reach_le calls)

end Segmentation

/-- A source is cut in the same way while it is counted how often it is asked. -/
theorem Segmentation.Cuts.metered {σ : Type} [CharSource σ] {source : σ} {cut : Segmentation}
    (cuts : cut.Cuts (CharSource.ahead source)) :
    cut.Cuts (CharSource.ahead (Metered.ofSource source)) := by
  rw [Metered.ahead_eq]
  exact cuts

namespace Lexer

variable {σ : Type} [CharSource σ] {lexer : Lexer σ} {source : σ} {finish : List Char}
  {segments : List Segment}

theorem after_succ' (calls : Nat) (lexer : Lexer σ) :
    lexer.after (calls + 1) = (lexer.after calls).next.2 :=
  Function.iterate_succ_apply' _ _ _

theorem draws_after (calls : Nat) (lexer : Lexer σ) : lexer.Draws (lexer.after calls) := by
  induction calls with
  | zero => exact .refl lexer
  | succ calls ih =>
    rw [after_succ']
    exact ih.trans (draws_next _)

/-- Each call faces the segments behind those of the calls before. -/
theorem faces_after (cut : Segmented finish segments (CharSource.ahead source)) (calls : Nat) :
    Faces finish (segments.drop calls) ((ofSource source).after calls).next.1.token
      ((ofSource source).after calls).next.2 := by
  induction calls with
  | zero =>
    change Faces finish segments (ofSource source).next.1.token (ofSource source).next.2
    rw [next_ofSource]
    apply faces_next
    rw [ahead_bump_ofSource]
    exact cut
  | succ calls ih =>
    rw [after_succ', ← List.tail_drop]
    exact ih.next

/-- What a lexer has asked after some calls follows from the cut of what its source hands out. -/
theorem source_after {cut : Segmentation} (cuts : cut.Cuts (CharSource.ahead source))
    (calls : Nat) :
    ((ofSource source).after calls).source = CharSource.after (cut.asked calls) source := by
  cases calls with
  | zero => rfl
  | succ calls =>
    have draws := draws_after (calls + 1) (ofSource source)
    have faces := faces_after cuts calls
    rw [after_succ'] at draws ⊢
    by_cases inside : calls ≤ cut.segments.length
    · have asked := faces.source_eq draws cuts (List.take_append_drop calls cut.segments).symm
      rwa [List.length_take_of_le inside] at asked
    · rw [List.drop_eq_nil_of_le (Nat.le_of_not_le inside)] at faces
      have asked := faces.source_eq draws cuts (List.append_nil _).symm
      rw [Segmentation.reach_of_length_le (Nat.le_refl _)] at asked
      rw [asked, Segmentation.asked_of_length_lt (by omega)]

/-! ### Calls of both kinds -/

/-- The two ways to call a lexer. -/
inductive Call where
  | next
  | next?
deriving DecidableEq, Repr

/-- A lexer behind a call. -/
def Call.rest : Call → Lexer σ → Lexer σ
  | .next, lexer => lexer.next.2
  | .next?, lexer => lexer.next?.2

/-- A lexer behind some calls. -/
def called (calls : List Call) (lexer : Lexer σ) : Lexer σ :=
  calls.foldl (fun lexer call => call.rest lexer) lexer

theorem called_concat (calls : List Call) (call : Call) (lexer : Lexer σ) :
    lexer.called (calls ++ [call]) = (lexer.called calls).next.2 := by
  rw [called, List.foldl_append]
  cases call <;> rfl

/-- It makes no difference to a lexer which way it is called. -/
theorem called_eq_after (calls : List Call) (lexer : Lexer σ) :
    lexer.called calls = lexer.after calls.length := by
  induction calls using List.reverseRecOn with
  | nil => rfl
  | append_singleton calls call ih =>
    rw [called_concat, ih, List.length_append, List.length_singleton, after_succ']

theorem next?_eq_none_iff : lexer.next?.1 = none ↔ lexer.next.1.token = .endOfInput := by
  simp [next?]

theorem next?_of_found (found : lexer.next.1.token ≠ .endOfInput) :
    lexer.next?.1 = some lexer.next.1.token := if_neg found

/-- Whatever the calls, a lexer over a source asks it for one character more than it has passed, and
for nothing behind the end. -/
structure LooksOneAhead (source : σ) (cut : Segmentation) : Prop where
  untouched : (ofSource (Metered.ofSource source)).source.pulled = 0
  /-- As long as lexemes are left, the next call answers the token of the next one. -/
  found : ∀ calls segment, cut.segments[calls.length]? = some segment →
    let lexer := (ofSource (Metered.ofSource source)).called calls
    segment.token ≠ .endOfInput ∧ lexer.next.1.token = segment.token ∧
      lexer.next?.1 = some segment.token ∧
      ∀ call, ((ofSource (Metered.ofSource source)).called (calls ++ [call])).source.pulled =
        cut.reach calls.length + 1
  /-- A call that answers the end of input has had the `none` behind all characters. -/
  finished : ∀ calls, cut.segments.length ≤ calls.length →
    let lexer := (ofSource (Metered.ofSource source)).called calls
    lexer.next.1.token = .endOfInput ∧ lexer.next?.1 = none ∧
      ∀ call, ((ofSource (Metered.ofSource source)).called (calls ++ [call])).source.pulled =
        (CharSource.ahead source).length + 1
  /-- A question that is answered `none` is the last one. -/
  last : ∀ calls question,
    question < ((ofSource (Metered.ofSource source)).called calls).source.pulled →
    (CharSource.next (CharSource.after question source)).1 = none →
    ((ofSource (Metered.ofSource source)).called calls).source.pulled = question + 1
  /-- The end of input is answered again and again. -/
  stays : ∀ calls more,
    let lexer := (ofSource (Metered.ofSource source)).called calls
    lexer.next.1.token = .endOfInput ∨ lexer.next?.1 = none →
    (lexer.called more).next.1.token = .endOfInput ∧ (lexer.called more).next?.1 = none

variable {answers : Nat → Option Char} {limit : Nat} {cut : Segmentation}

theorem pulled_called (cuts : cut.Cuts (CharSource.ahead source)) (calls : List Call) :
    ((ofSource (Metered.ofSource source)).called calls).source.pulled = cut.asked calls.length := by
  rw [called_eq_after, source_after cuts.metered, Metered.pulled_after]

theorem called_append (calls more : List Call) (lexer : Lexer σ) :
    lexer.called (calls ++ more) = (lexer.called calls).called more := List.foldl_append

/-- The next call answers the first token that is left. -/
theorem token_called (cuts : cut.Cuts (CharSource.ahead source)) (calls : List Call) :
    ((ofSource source).called calls).next.1.token =
      (cut.segments[calls.length]?.map (·.token)).getD .endOfInput := by
  rw [called_eq_after, (faces_after cuts calls.length).current_eq, List.head?_drop]

theorem looksOneAhead (cuts : cut.Cuts (CharSource.ahead source)) : LooksOneAhead source cut := by
  have metered := cuts.metered
  have pulled := pulled_called cuts
  have chars : cut.chars = CharSource.ahead source := cuts.chars_eq
  refine ⟨rfl, ?_, ?_, ?_, ?_⟩
  · intro calls segment left
    have token := token_called metered calls
    rw [left, Option.map_some, Option.getD_some] at token
    have found : segment.token ≠ .endOfInput :=
      (cuts.lexeme segment (List.mem_of_getElem? left)).ne_endOfInput
    refine ⟨found, token, ?_, fun call => ?_⟩
    · rw [next?_of_found (token ▸ found), token]
    · rw [pulled, List.length_append]
      rfl
  · intro calls past
    have token := token_called metered calls
    rw [List.getElem?_eq_none past, Option.map_none, Option.getD_none] at token
    refine ⟨token, next?_eq_none_iff.mpr token, fun call => ?_⟩
    rw [pulled, List.length_append, List.length_singleton,
      Segmentation.asked_of_length_lt (Nat.lt_succ_of_le past), chars]
  · intro calls question asked none
    have most := cut.asked_le calls.length
    rw [pulled] at asked ⊢
    rw [chars] at most
    rw [CharSource.next_after (by omega), List.getElem?_eq_none_iff] at none
    omega
  · intro calls more lexer ended
    have finished : lexer.next.1.token = .endOfInput := ended.elim id next?_eq_none_iff.mp
    have past : cut.segments.length ≤ calls.length := by
      by_contra inside
      have token := token_called metered calls
      rw [List.getElem?_eq_getElem (Nat.not_le.mp inside), Option.map_some,
        Option.getD_some] at token
      have lexeme := cuts.lexeme _ (List.getElem_mem (Nat.not_le.mp inside))
      exact lexeme.ne_endOfInput (token.symm.trans finished)
    have token := token_called metered (calls ++ more)
    have behind : cut.segments.length ≤ (calls ++ more).length := by
      rw [List.length_append]
      omega
    rw [List.getElem?_eq_none behind, Option.map_none, Option.getD_none, called_append] at token
    exact ⟨token, next?_eq_none_iff.mpr token⟩

/-- Calls that stay inside of an excerpt do the same over a larger one. -/
theorem called_within {lexer : Lexer (Excerpt answers)} {calls : List Call}
    (inside : (lexer.called calls).Inside limit) :
    (lexer.within limit).called calls = (lexer.called calls).within limit := by
  induction calls using List.reverseRecOn with
  | nil => rfl
  | append_singleton calls call ih =>
    rw [called_concat] at inside ⊢
    rw [called_concat, ih ((draws_next _).inside inside), next_within inside]

/-- A lexer looks one character ahead and never behind the end, whatever calls it answers: over
every source that ends, though it may go on behind its `none`; and over a source that does not end
too, since a beginning of it that is long enough for some calls is read in the same way as any
longer one. -/
theorem looks_one_ahead :
    (∀ (σ : Type) [CharSource σ] (source : σ), ∃ cut : Segmentation,
      cut.Cuts (CharSource.ahead source) ∧ LooksOneAhead source cut) ∧
    ∀ (answers : Nat → Option Char) (limit larger : Nat) (calls : List Call) (call : Call),
      let lexer := (ofSource (Excerpt.upTo answers limit)).called calls
      let other := (ofSource (Excerpt.upTo answers larger)).called calls
      limit ≤ larger → (lexer.called [call]).source.asked ≤ limit →
        other.next.1 = lexer.next.1 ∧ other.next?.1 = lexer.next?.1 ∧
          (other.called [call]).source.asked = (lexer.called [call]).source.asked := by
  constructor
  · intro σ _ source
    obtain ⟨segments, finish, cut⟩ := exists_segmented (CharSource.ahead source)
    exact ⟨⟨segments, finish⟩, cut, looksOneAhead cut⟩
  · intro answers limit larger calls call lexer other le asked
    have drawn : (ofSource (Excerpt.upTo answers limit)).Draws (lexer.called [call]) := by
      rw [← called_append, called_eq_after]
      exact draws_after _ _
    have inside : (lexer.called [call]).Inside larger := by
      constructor <;> rwa [drawn.limit_eq]
    have next : lexer.next.2.Inside larger := by
      cases call <;> exact inside
    have same : other = lexer.within larger := called_within ((draws_next _).inside next)
    rw [same]
    have step := next_within next
    refine ⟨congrArg (·.1) step, ?_, ?_⟩
    · rw [next?, next?, step]
    · cases call <;> exact congrArg (·.2.source.asked) step

/-- A word and a blank again and again: the second word is known with the fourth answer. -/
theorem looks_one_ahead_of_words :
    let answers : Nat → Option Char := fun asked => some (if asked % 2 = 0 then 'a' else ' ')
    let lexer := (ofSource (Excerpt.upTo answers 4)).called [.next]
    let other := (ofSource (Excerpt.upTo answers 100)).called [.next]
    (lexer.called [.next?]).source.asked = 4 ∧ lexer.next?.1 = some (.name "a") ∧
      (other.called [.next?]).source.asked = 4 ∧ other.next?.1 = some (.name "a") := by
  intro answers lexer other
  have asked : (lexer.called [.next?]).source.asked = 4 := by decide +kernel
  have word : lexer.next?.1 = some (.name "a") := by decide +kernel
  obtain ⟨_, same, count⟩ :=
    looks_one_ahead.2 answers 4 100 [.next] .next? (by decide) (Nat.le_of_eq asked)
  exact ⟨asked, word, count.trans asked, same.trans word⟩

end Lexer

end OpLang
