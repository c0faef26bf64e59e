import Mathlib.Data.Nat.Init
import Mathlib.Order.Basic
import OpLang.Pattern.Rule

/-! # What a search finds

A rule matches the characters between two places of a text. Following a rule from a set of places
leads to the ends of what it matches from there, so a search finds something exactly if there is
something to be found.

Repetitions are where this takes an argument, since their counts are cut to the number of places. A
repetition that is longer than that stays at its place at some time, and there it can be made
shorter or longer at will.
-/

namespace OpLang.Pattern

/-- Steps from place to place, as many as are counted. -/
inductive Repeats (step : Nat → Nat → Prop) : Nat → Nat → Nat → Prop where
  | none (place : Nat) : Repeats step 0 place place
  | more {times start next finish : Nat} (first : step start next)
    (others : Repeats step times next finish) : Repeats step (times + 1) start finish

/-- The character in front of a place. -/
def before? (text : List Char) : Nat → Option Char
  | 0 => none
  | place + 1 => text[place]?

/-- A rule matches the characters between two places of a text. -/
def Rule.Matches (text : List Char) : Rule → Nat → Nat → Prop
  | nothing, start, finish => finish = start
  | one set, start, finish =>
    finish = start + 1 ∧ ∃ char, text[start]? = some char ∧ set.contains char = true
  | .condition wanted, start, finish =>
    finish = start ∧ wanted.holds (before? text start) text[start]? = true
  | sequence first second, start, finish =>
    ∃ middle, first.Matches text start middle ∧ second.Matches text middle finish
  | choice left right, start, finish =>
    left.Matches text start finish ∨ right.Matches text start finish
  | repeated body least most?, start, finish =>
    ∃ times, least ≤ times ∧ (∀ most ∈ most?, times ≤ max least most) ∧
      Repeats (body.Matches text) times start finish

/-- A place is in a set of places. -/
def Places.Has (places : Places) (place : Nat) : Prop := places[place]? = some true

variable {step other : Nat → Nat → Prop} {times more start middle finish last : Nat}

/-! ### Repetition -/

namespace Repeats

theorem add_iff : Repeats step (times + more) start finish ↔
    ∃ middle, Repeats step times start middle ∧ Repeats step more middle finish := by
  constructor
  · intro repeats
    induction times generalizing start with
    | zero => exact ⟨start, .none start, by rwa [Nat.zero_add] at repeats⟩
    | succ times ih =>
      rw [Nat.succ_add] at repeats
      cases repeats with
      | more first others =>
        obtain ⟨middle, before, behind⟩ := ih others
        exact ⟨middle, .more first before, behind⟩
  · rintro ⟨middle, before, behind⟩
    induction before with
    | none => rwa [Nat.zero_add]
    | more first _ ih =>
      rw [Nat.succ_add]
      exact .more first (ih behind)

theorem within (inside : ∀ start finish, start ≤ last → step start finish → finish ≤ last)
    (begins : start ≤ last) (repeats : Repeats step times start finish) : finish ≤ last := by
  induction repeats with
  | none => exact begins
  | more first _ ih => exact ih (inside _ _ begins first)

section

variable (forward : ∀ start finish, step start finish → start ≤ finish)

include forward

theorem le (repeats : Repeats step times start finish) : start ≤ finish := by
  induction repeats with
  | none => exact Nat.le_refl _
  | more first _ ih => exact Nat.le_trans (forward _ _ first) ih

/-- With more steps than places to go, one step stays where it is. -/
theorem resize (repeats : Repeats step (times + 1) start finish)
    (long : finish ≤ start + times) :
    Repeats step times start finish ∧ Repeats step (times + 2) start finish := by
  induction times generalizing start with
  | zero =>
    cases repeats with
    | @more _ _ next _ first others =>
      have goes := forward start next first
      have within := others.le forward
      obtain rfl : start = next := by omega
      exact ⟨others, .more first (.more first others)⟩
  | succ times ih =>
    cases repeats with
    | @more _ _ next _ first others =>
      -- A step that stays can be left out or taken twice; one that goes on leaves less room.
      rcases Nat.eq_or_lt_of_le (forward start next first) with rfl | goes
      · exact ⟨others, .more first (.more first others)⟩
      · obtain ⟨fewer, further⟩ := ih others (by omega)
        exact ⟨.more first fewer, .more first further⟩

/-- Counts beyond the number of places make no difference. -/
theorem iff_of_lt (within : finish ≤ last) (long : last < times) :
    Repeats step times start finish ↔ Repeats step (last + 1) start finish := by
  induction times, long using Nat.le_induction with
  | base => rfl
  | succ times long ih =>
    rw [← ih]
    constructor
    · intro repeats
      exact (repeats.resize forward (by omega)).1
    · intro repeats
      obtain ⟨fewer, rfl⟩ := Nat.exists_eq_add_one_of_ne_zero (Nat.ne_zero_of_lt long)
      exact (repeats.resize forward (by omega)).2

theorem min_iff (within : finish ≤ last) :
    Repeats step (min times (last + 1)) start finish ↔ Repeats step times start finish := by
  rcases Nat.lt_or_ge last times with long | short
  · rw [Nat.min_eq_right long, iff_of_lt forward within long]
  · rw [Nat.min_eq_left (by omega)]

end

end Repeats

/-! ### Sets of places -/

namespace Places

variable {left right places : Places} {place : Nat} {go onwards : Places → Places}

theorem Has.le (has : places.Has place) (length : places.length = last + 1) : place ≤ last := by
  have inside := (List.getElem?_eq_some_iff.mp has).1
  omega

theorem length_join (length : left.length = last + 1) (length' : right.length = last + 1) :
    (join left right).length = last + 1 := by
  rw [join, List.length_zipWith, length, length', Nat.min_self]

theorem has_join (same : left.length = right.length) :
    (join left right).Has place ↔ left.Has place ∨ right.Has place := by
  rw [Has, join, List.getElem?_zipWith_eq_some]
  constructor
  · rintro ⟨mark, mark', found, found', either⟩
    rcases Bool.or_eq_true_iff.mp either with rfl | rfl
    · exact .inl found
    · exact .inr found'
  · rintro (has | has)
    · have inside := (List.getElem?_eq_some_iff.mp has).1
      exact ⟨true, _, has, List.getElem?_eq_getElem (same ▸ inside), rfl⟩
    · have inside := (List.getElem?_eq_some_iff.mp has).1
      exact ⟨_, true, List.getElem?_eq_getElem (same ▸ inside), has, Bool.or_true _⟩

theorem has_zipWith {α : Type} {test : α → Bool} {others : List α} :
    Has (List.zipWith (fun mark other => mark && test other) places others) place ↔
      places.Has place ∧ ∃ other, others[place]? = some other ∧ test other = true := by
  rw [Has, List.getElem?_zipWith_eq_some]
  constructor
  · rintro ⟨mark, other, found, found', both⟩
    obtain ⟨rfl, passes⟩ := Bool.and_eq_true_iff.mp both
    exact ⟨found, other, found', passes⟩
  · rintro ⟨has, other, found, passes⟩
    exact ⟨true, other, has, found, passes⟩

/-- Going on from sets of places leads to the ends of the steps that begin in them. -/
structure Follows (last : Nat) (go : Places → Places) (step : Nat → Nat → Prop) : Prop where
  length : ∀ places : Places, places.length = last + 1 → (go places).length = last + 1
  has : ∀ (places : Places) (finish : Nat), places.length = last + 1 →
    ((go places).Has finish ↔ ∃ start, places.Has start ∧ step start finish)
  forward : ∀ start finish, step start finish → start ≤ finish

namespace Follows

theorem andThen (follows : Follows last go step) (behind : Follows last onwards other) :
    Follows last (onwards ∘ go) fun start finish =>
      ∃ middle, step start middle ∧ other middle finish where
  length places length := behind.length _ (follows.length places length)
  has places finish length := by
    rw [Function.comp_apply, behind.has _ finish (follows.length places length)]
    simp only [follows.has places _ length]
    constructor
    · rintro ⟨middle, ⟨start, has, first⟩, second⟩
      exact ⟨start, has, middle, first, second⟩
    · rintro ⟨start, has, middle, first, second⟩
      exact ⟨middle, ⟨start, has, first⟩, second⟩
  forward := by
    rintro start finish ⟨middle, first, second⟩
    exact Nat.le_trans (follows.forward start middle first) (behind.forward middle finish second)

theorem within (follows : Follows last go step) :
    ∀ start finish, start ≤ last → step start finish → finish ≤ last := by
  intro start finish begins first
  have whole : (List.replicate (last + 1) true).length = last + 1 := List.length_replicate
  have has : Has (List.replicate (last + 1) true) start :=
    List.getElem?_replicate_of_lt (by omega)
  have reached := (follows.has _ finish whole).mpr ⟨start, has, first⟩
  exact reached.le (follows.length _ whole)

/-- Only steps between places of the text count. -/
theorem congr (follows : Follows last go step)
    (same : ∀ start finish, finish ≤ last → (step start finish ↔ other start finish))
    (forward : ∀ start finish, other start finish → start ≤ finish)
    (inside : ∀ start finish, start ≤ last → other start finish → finish ≤ last) :
    Follows last go other where
  length := follows.length
  has places finish length := by
    rw [follows.has places finish length]
    constructor
    · rintro ⟨start, has, first⟩
      have within := follows.within start finish (has.le length) first
      exact ⟨start, has, (same start finish within).mp first⟩
    · rintro ⟨start, has, first⟩
      have within := inside start finish (has.le length) first
      exact ⟨start, has, (same start finish within).mpr first⟩
  forward := forward

theorem iterate_succ (go : Places → Places) (times : Nat) (places : Places) :
    iterate go (times + 1) places = iterate go times (go places) := by
  have stays (closed : go places = places) : iterate go times places = places := by
    cases times with
    | zero => rfl
    | succ times => simp [Places.iterate, closed]
  rw [Places.iterate]
  split
  · next closed => rw [closed, stays closed]
  · rfl

theorem iterate (follows : Follows last go step) (times : Nat) :
    Follows last (Places.iterate go times) (Repeats step times) where
  length := by
    intro places length
    induction times generalizing places with
    | zero => exact length
    | succ times ih =>
      rw [iterate_succ]
      exact ih _ (follows.length places length)
  has := by
    intro places finish length
    induction times generalizing places with
    | zero =>
      constructor
      · intro has
        exact ⟨finish, has, .none finish⟩
      · rintro ⟨_, has, ⟨⟩⟩
        exact has
    | succ times ih =>
      rw [iterate_succ, ih _ (follows.length places length)]
      simp only [follows.has places _ length]
      constructor
      · rintro ⟨next, ⟨start, has, first⟩, others⟩
        exact ⟨start, has, .more first others⟩
      · rintro ⟨start, has, repeats⟩
        cases repeats with
        | more first others => exact ⟨_, ⟨start, has, first⟩, others⟩
  forward _ _ repeats := repeats.le follows.forward

theorem accumulate_succ (go : Places → Places) (times : Nat) (places : Places) :
    accumulate go (times + 1) places = accumulate go times (join places (go places)) := by
  have stays (closed : join places (go places) = places) :
      accumulate go times places = places := by
    cases times with
    | zero => rfl
    | succ times => simp [Places.accumulate, closed]
  rw [Places.accumulate]
  split
  · next closed => rw [closed, stays closed]
  · rfl

theorem accumulate (follows : Follows last go step) (times : Nat) :
    Follows last (Places.accumulate go times) fun start finish =>
      ∃ count, count ≤ times ∧ Repeats step count start finish where
  length := by
    intro places length
    induction times generalizing places with
    | zero => exact length
    | succ times ih =>
      rw [accumulate_succ]
      exact ih _ (length_join length (follows.length places length))
  has := by
    intro places finish length
    induction times generalizing places with
    | zero =>
      constructor
      · intro has
        exact ⟨finish, has, 0, Nat.le_refl 0, .none finish⟩
      · rintro ⟨start, has, count, few, repeats⟩
        obtain rfl := Nat.le_zero.mp few
        cases repeats with
        | none => exact has
    | succ times ih =>
      have length' := follows.length places length
      rw [accumulate_succ, ih _ (length_join length length')]
      simp only [has_join (length.trans length'.symm), follows.has places _ length]
      constructor
      · rintro ⟨next, has | ⟨start, has, first⟩, count, few, others⟩
        · exact ⟨next, has, count, by omega, others⟩
        · exact ⟨start, has, count + 1, by omega, .more first others⟩
      · rintro ⟨start, has, count, few, repeats⟩
        cases repeats with
        | none => exact ⟨finish, .inl has, 0, by omega, .none finish⟩
        | more first others => exact ⟨_, .inr ⟨start, has, first⟩, _, by omega, others⟩
  forward := by
    rintro start finish ⟨count, _, repeats⟩
    exact repeats.le follows.forward

end Follows

end Places

/-! ### Rules -/

namespace Rule

open Places (Follows)

variable {text : List Char}

theorem follows_nothing : Follows text.length (nothing.follow text) (nothing.Matches text) where
  length places length := length
  has places finish _ := by
    constructor
    · intro has
      exact ⟨finish, has, rfl⟩
    · rintro ⟨start, has, rfl⟩
      exact has
  forward := by
    rintro start finish rfl
    exact Nat.le_refl _

theorem follows_one (set : CharSet) :
    Follows text.length ((one set).follow text) ((one set).Matches text) where
  length places length := by
    rw [follow, List.length_cons, List.length_zipWith, length]
    omega
  has places finish _ := by
    cases finish with
    | zero =>
      constructor
      · intro has
        cases Option.some.inj has
      · rintro ⟨start, _, same, _⟩
        contradiction
    | succ place =>
      rw [follow, Places.Has, List.getElem?_cons_succ]
      refine Places.has_zipWith.trans ?_
      constructor
      · rintro ⟨has, found⟩
        exact ⟨place, has, rfl, found⟩
      · rintro ⟨start, has, same, found⟩
        obtain rfl := Nat.succ.inj same
        exact ⟨has, found⟩
  forward := by
    rintro start finish ⟨rfl, _⟩
    exact Nat.le_succ start

/-- The characters on both sides of a place. -/
theorem getElem?_contexts {place : Nat} (within : place ≤ text.length) :
    (List.zip (none :: text.map some) (text.map some ++ [none]))[place]? =
      some (before? text place, text[place]?) := by
  apply List.getElem?_zip_eq_some.mpr
  constructor
  · cases place with
    | zero => rfl
    | succ place =>
      rw [List.getElem?_cons_succ, List.getElem?_map, before?, List.getElem?_eq_getElem within]
      rfl
  · rcases Nat.eq_or_lt_of_le within with rfl | inside
    · rw [List.getElem?_append_right (by simp), List.length_map, Nat.sub_self,
        List.getElem?_eq_none (Nat.le_refl _)]
      rfl
    · rw [List.getElem?_append_left (by simpa), List.getElem?_map, List.getElem?_eq_getElem inside]
      rfl

theorem follows_condition (wanted : Condition) :
    Follows text.length ((condition wanted).follow text) ((condition wanted).Matches text) where
  length places length := by
    rw [follow, List.length_zipWith, List.length_zip, length]
    simp
  has places finish length := by
    refine Places.has_zipWith.trans ?_
    constructor
    · rintro ⟨has, _, found, holds⟩
      rw [getElem?_contexts (has.le length)] at found
      obtain rfl := Option.some.inj found
      exact ⟨finish, has, rfl, holds⟩
    · rintro ⟨start, has, rfl, holds⟩
      exact ⟨has, _, getElem?_contexts (has.le length), holds⟩
  forward := by
    rintro start finish ⟨rfl, _⟩
    exact Nat.le_refl _

theorem follows_choice {left right : Rule}
    (follows : Follows text.length (left.follow text) (left.Matches text))
    (follows' : Follows text.length (right.follow text) (right.Matches text)) :
    Follows text.length ((choice left right).follow text) ((choice left right).Matches text) where
  length places length :=
    Places.length_join (follows.length places length) (follows'.length places length)
  has places finish length := by
    have same := (follows.length places length).trans (follows'.length places length).symm
    refine (Places.has_join same).trans ?_
    rw [follows.has places finish length, follows'.has places finish length, ← exists_or]
    simp only [← and_or_left]
    rfl
  forward := by
    rintro start finish (first | second)
    · exact follows.forward start finish first
    · exact follows'.forward start finish second

/-- Some steps at least and some more are a repetition within its bounds, however they are cut. -/
theorem repeated_iff {step : Nat → Nat → Prop} {last finish : Nat} (least : Nat)
    (most? : Option Nat) (start : Nat)
    (forward : ∀ start finish, step start finish → start ≤ finish) (within : finish ≤ last) :
    let more := match most? with
      | none => last + 1
      | some most => min (most - least) (last + 1)
    (∃ middle, Repeats step (min least (last + 1)) start middle ∧
        ∃ count, count ≤ more ∧ Repeats step count middle finish) ↔
      ∃ times, least ≤ times ∧ (∀ most ∈ most?, times ≤ max least most) ∧
        Repeats step times start finish := by
  intro more
  constructor
  · rintro ⟨middle, before, count, few, behind⟩
    have inside := Nat.le_trans (behind.le forward) within
    have whole := (Repeats.min_iff forward inside).mp before
    refine ⟨least + count, Nat.le_add_right _ _, ?_, Repeats.add_iff.mpr ⟨middle, whole, behind⟩⟩
    rintro most ⟨⟩
    have few : count ≤ min (most - least) (last + 1) := few
    omega
  · rintro ⟨times, enough, few, repeats⟩
    obtain ⟨extra, rfl⟩ := Nat.exists_eq_add_of_le enough
    obtain ⟨middle, before, behind⟩ := Repeats.add_iff.mp repeats
    have inside := Nat.le_trans (behind.le forward) within
    refine ⟨middle, (Repeats.min_iff forward inside).mpr before, min extra (last + 1), ?_,
      (Repeats.min_iff forward within).mpr behind⟩
    cases most? with
    | none => exact Nat.min_le_right _ _
    | some most =>
      have few := few most rfl
      change min extra (last + 1) ≤ min (most - least) (last + 1)
      omega

theorem follows_repeated {body : Rule} (least : Nat) (most? : Option Nat)
    (follows : Follows text.length (body.follow text) (body.Matches text)) :
    Follows text.length ((repeated body least most?).follow text)
      ((repeated body least most?).Matches text) := by
  have parts (more : Nat) := (follows.iterate (min least (text.length + 1))).andThen
    (follows.accumulate more)
  have forward : ∀ start finish, (repeated body least most?).Matches text start finish →
      start ≤ finish := by
    rintro start finish ⟨times, _, _, repeats⟩
    exact repeats.le follows.forward
  have inside : ∀ start finish, start ≤ text.length →
      (repeated body least most?).Matches text start finish → finish ≤ text.length := by
    rintro start finish begins ⟨times, _, _, repeats⟩
    exact repeats.within follows.within begins
  have same (start finish : Nat) (within : finish ≤ text.length) :=
    repeated_iff least most? start follows.forward within
  cases most? with
  | none => exact (parts _).congr same forward inside
  | some most => exact (parts _).congr same forward inside

/-- Following a rule leads to the ends of what it matches. -/
theorem follows (text : List Char) (rule : Rule) :
    Follows text.length (rule.follow text) (rule.Matches text) := by
  induction rule with
  | nothing => exact follows_nothing
  | one set => exact follows_one set
  | condition wanted => exact follows_condition wanted
  | sequence first second ih ih' => exact ih.andThen ih'
  | choice left right ih ih' => exact follows_choice ih ih'
  | repeated body least most? ih => exact follows_repeated least most? ih

/-- A search finds something exactly if the rule matches the characters between two places. -/
theorem occursIn_iff (rule : Rule) (text : List Char) : rule.occursIn text = true ↔
    ∃ start finish, start ≤ finish ∧ finish ≤ text.length ∧ rule.Matches text start finish := by
  have follows := rule.follows text
  have whole : (List.replicate (text.length + 1) true).length = text.length + 1 :=
    List.length_replicate
  rw [occursIn, List.any_eq_true]
  constructor
  · rintro ⟨mark, member, rfl⟩
    obtain ⟨finish, has⟩ := List.mem_iff_getElem?.mp member
    have within := Places.Has.le has (follows.length _ whole)
    obtain ⟨start, _, found⟩ := (follows.has _ finish whole).mp has
    exact ⟨start, finish, follows.forward start finish found, within, found⟩
  · rintro ⟨start, finish, goes, within, found⟩
    have begins : Places.Has (List.replicate (text.length + 1) true) start :=
      List.getElem?_replicate_of_lt (by omega)
    have has := (follows.has _ finish whole).mpr ⟨start, begins, found⟩
    exact ⟨true, List.mem_iff_getElem?.mpr ⟨finish, has⟩, rfl⟩

end Rule

end OpLang.Pattern
