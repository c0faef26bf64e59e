import OpLang.Expr

/-! # Grouping chains of operands

A chain of operands is an operand with links, each an operator and the operand behind it. It is cut
at the rightmost of its loosest operators, and both sides are grouped in the same way. `cut?` finds
the place of the cut, and `cut?_eq_some_iff` says that there is only one.

Whoever reads a chain from the left meets links in another order. `group_link` is what makes that
possible: once everything tighter behind an operator has been grouped, its node may take the place
of the first operand.
-/

namespace OpLang.Grammar

/-- A chain cut at one of its operators, with the operand right behind it. -/
structure Cut (α : Type) where
  before : List (Char × α)
  operator : Char
  operand : α
  behind : List (Char × α)

namespace Cut

variable {α : Type}

/-- The links that were cut. -/
def links (cut : Cut α) : List (Char × α) :=
  cut.before ++ (cut.operator, cut.operand) :: cut.behind

/-- The operator of the cut is the rightmost of the loosest. -/
def Loosest (strength : Char → Int) (cut : Cut α) : Prop :=
  (∀ link ∈ cut.before, strength cut.operator ≤ strength link.1) ∧
    ∀ link ∈ cut.behind, strength cut.operator < strength link.1

end Cut

variable {α : Type} {strength : Char → Int}

/-- Find the rightmost of the loosest operators. -/
def cut? (strength : Char → Int) : List (Char × α) → Option (Cut α)
  | [] => none
  | (operator, operand) :: links =>
    match cut? strength links with
    | none => some ⟨[], operator, operand, links⟩
    | some cut =>
      if strength cut.operator ≤ strength operator then
        some { cut with before := (operator, operand) :: cut.before }
      else some ⟨[], operator, operand, links⟩

theorem cut?_eq_none_iff {links : List (Char × α)} : cut? strength links = none ↔ links = [] := by
  cases links with
  | nil => simp [cut?]
  | cons link links =>
    simp only [cut?, reduceCtorEq, iff_false]
    split
    · simp
    · split <;> simp

theorem loosest_of_cut? {links : List (Char × α)} {cut : Cut α}
    (found : cut? strength links = some cut) : cut.links = links ∧ cut.Loosest strength := by
  induction links generalizing cut with
  | nil => simp [cut?] at found
  | cons link links ih =>
    simp only [cut?] at found
    split at found
    · next none =>
      obtain rfl := cut?_eq_none_iff.mp none
      cases found
      exact ⟨rfl, by simp [Cut.Loosest]⟩
    · next inner some =>
      obtain ⟨whole, before, behind⟩ := ih some
      split at found
      · next looser =>
        cases found
        refine ⟨by rw [← whole]; rfl, ?_, behind⟩
        intro other member
        rcases List.mem_cons.mp member with rfl | member
        · exact looser
        · exact before other member
      · next tighter =>
        cases found
        refine ⟨rfl, by simp, ?_⟩
        intro other member
        rw [← whole] at member
        dsimp only
        rcases List.mem_append.mp member with member | member
        · have := before other member
          omega
        · rcases List.mem_cons.mp member with rfl | member
          · dsimp only
            omega
          · have := behind other member
            omega

private theorem before_length_le {cut other : Cut α} (same : cut.links = other.links)
    (loosest : cut.Loosest strength) (otherLoosest : other.Loosest strength) :
    cut.before.length ≤ other.before.length := by
  -- Otherwise the other cut's operator stands before this one, and each is looser than the other.
  refine Nat.le_of_not_lt fun bound => ?_
  have atCut : cut.links[other.before.length]? = some (other.operator, other.operand) := by
    rw [same, Cut.links, List.getElem?_append_right (Nat.le_refl _)]
    simp
  have left : (other.operator, other.operand) ∈ cut.before := by
    rw [Cut.links, List.getElem?_append_left bound] at atCut
    exact List.mem_of_getElem? atCut
  have atOther : other.links[cut.before.length]? = some (cut.operator, cut.operand) := by
    rw [← same, Cut.links, List.getElem?_append_right (Nat.le_refl _)]
    simp
  have right : (cut.operator, cut.operand) ∈ other.behind := by
    rw [Cut.links, List.getElem?_append_right (Nat.le_of_lt bound)] at atOther
    obtain ⟨gap, steps⟩ : ∃ gap, cut.before.length - other.before.length = gap + 1 :=
      ⟨cut.before.length - other.before.length - 1, by omega⟩
    rw [steps, List.getElem?_cons_succ] at atOther
    exact List.mem_of_getElem? atOther
  have := loosest.1 _ left
  have := otherLoosest.2 _ right
  dsimp only at *
  omega

/-- Links that are tight enough may stand in front of a cut. -/
theorem Cut.Loosest.behind_links {cut : Cut α} (loosest : cut.Loosest strength)
    (links : List (Char × α)) (tight : ∀ link ∈ links, strength cut.operator ≤ strength link.1) :
    ({ cut with before := links ++ cut.before } : Cut α).Loosest strength :=
  ⟨List.forall_mem_append.mpr ⟨tight, loosest.1⟩, loosest.2⟩

/-- No link is looser than the operator of the cut. -/
theorem Cut.Loosest.le {cut : Cut α} (loosest : cut.Loosest strength) :
    ∀ link ∈ cut.links, strength cut.operator ≤ strength link.1 := by
  refine List.forall_mem_append.mpr ⟨loosest.1, List.forall_mem_cons.mpr ⟨Int.le_refl _, ?_⟩⟩
  exact fun link member => Int.le_of_lt (loosest.2 link member)

/-- A chain has one place to be cut at. -/
theorem Cut.Loosest.unique {cut other : Cut α} (same : cut.links = other.links)
    (loosest : cut.Loosest strength) (otherLoosest : other.Loosest strength) : cut = other := by
  have lengths : cut.before.length = other.before.length :=
    Nat.le_antisymm (before_length_le same loosest otherLoosest)
      (before_length_le same.symm otherLoosest loosest)
  obtain ⟨before, rest⟩ := List.append_inj same lengths
  simp only [List.cons.injEq, Prod.mk.injEq] at rest
  obtain ⟨⟨operator, operand⟩, behind⟩ := rest
  cases cut
  cases other
  simp_all only

theorem cut?_eq_some_iff {links : List (Char × α)} {cut : Cut α} :
    cut? strength links = some cut ↔ cut.links = links ∧ cut.Loosest strength := by
  constructor
  · exact loosest_of_cut?
  · rintro ⟨rfl, loosest⟩
    cases found : cut? strength cut.links with
    | none =>
      have empty := cut?_eq_none_iff.mp found
      simp [Cut.links] at empty
    | some other =>
      obtain ⟨same, otherLoosest⟩ := loosest_of_cut? found
      rw [otherLoosest.unique same loosest]

theorem Cut.length_lt {links : List (Char × α)} {cut : Cut α}
    (found : cut? strength links = some cut) :
    cut.before.length < links.length ∧ cut.behind.length < links.length := by
  obtain ⟨whole, _⟩ := loosest_of_cut? found
  have length := congrArg List.length whole
  simp only [Cut.links, List.length_append, List.length_cons] at length
  omega

/-- The tree of a chain: a node for the operator of the cut, between the trees of the two sides. -/
def group (strength : Char → Int) (first : Expr) (links : List (Char × Expr)) : Expr :=
  match _ : cut? strength links with
  | none => first
  | some cut => .binary cut.operator (group strength first cut.before)
      (group strength cut.operand cut.behind)
termination_by links.length
decreasing_by
  · exact (Cut.length_lt ‹_›).1
  · exact (Cut.length_lt ‹_›).2

@[simp] theorem group_nil (strength : Char → Int) (first : Expr) :
    group strength first [] = first := by
  rw [group]
  rfl

theorem group_cut {cut : Cut Expr} (loosest : cut.Loosest strength) (first : Expr) :
    group strength first cut.links =
      .binary cut.operator (group strength first cut.before)
        (group strength cut.operand cut.behind) := by
  have found : cut? strength cut.links = some cut := cut?_eq_some_iff.mpr ⟨rfl, loosest⟩
  rw [group]
  split
  · next none => simp [none] at found
  · next other some =>
    obtain rfl : other = cut := by simpa [some] using found
    rfl

/-- Links tighter than an operator belong to its right operand, and the node may then stand for the
first operand of what follows. -/
theorem group_link (first : Expr) {operator : Char} {operand : Expr}
    {inner rest : List (Char × Expr)}
    (tight : ∀ link ∈ inner, strength operator < strength link.1)
    (loose : ∀ link ∈ rest.head?, strength link.1 ≤ strength operator) :
    group strength first ((operator, operand) :: inner ++ rest) =
      group strength (.binary operator first (group strength operand inner)) rest := by
  induction length : rest.length using Nat.strongRecOn generalizing rest with
  | ind n ih =>
    cases found : cut? strength rest with
    | none =>
      obtain rfl := cut?_eq_none_iff.mp found
      let cut : Cut Expr := ⟨[], operator, operand, inner⟩
      have loosest : cut.Loosest strength := ⟨by simp [cut], tight⟩
      have grouped := group_cut loosest first
      simpa only [cut, Cut.links, List.nil_append, List.append_nil, group_nil] using grouped
    | some cut =>
      -- The cut of the rest cuts the whole: its operator is no tighter than the first link.
      obtain ⟨rfl, loosest⟩ := loosest_of_cut? found
      obtain ⟨start, starts⟩ : ∃ start, cut.links.head? = some start :=
        Option.isSome_iff_exists.mp (by simp [Cut.links])
      have looser : strength cut.operator ≤ strength operator :=
        Int.le_trans (loosest.le start (List.mem_of_mem_head? starts)) (loose start starts)
      have wholeLoosest := loosest.behind_links ((operator, operand) :: inner) <|
        List.forall_mem_cons.mpr ⟨looser, fun link member =>
          Int.le_trans looser (Int.le_of_lt (tight link member))⟩
      have shorter : cut.before.length < n := by rw [← length]; exact (Cut.length_lt found).1
      have head : ∀ link ∈ cut.before.head?, strength link.1 ≤ strength operator := by
        intro link member
        refine loose link ?_
        rw [Cut.links, List.head?_append, Option.mem_def.mp member]
        rfl
      have left := ih _ shorter head rfl
      have grouped := group_cut wholeLoosest first
      rw [group_cut loosest, ← left]
      simpa only [Cut.links, List.append_assoc, List.cons_append] using grouped

end OpLang.Grammar
