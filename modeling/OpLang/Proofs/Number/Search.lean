import Mathlib.Data.List.TakeWhile
import OpLang.Proofs.Lexer.Lexemes

/-! # The beginning of a literal that decides

The number of a literal is searched for among its beginnings. The longest one that spells a decimal
ends where the digits up to the second point do, so the search has a closed form: these digits are
rounded, and without any of them the number is zero.
-/

namespace OpLang.Literal

/-- Characters that are digits throughout. -/
def Digits (chars : List Char) : Prop := ∀ char ∈ chars, char.isDigit = true

/-- The decimal of the digits before the first point and those between this point and the next. -/
def decimal (literal : List Char) : Decimal :=
  let whole := literal.takeWhile Char.isDigit
  match literal.dropWhile Char.isDigit with
  | '.' :: rest => .ofDigits whole (rest.takeWhile Char.isDigit)
  | _ => .ofDigits whole []

variable {literal front rest whole fraction : List Char} {spelled : Decimal} {char : Char}

theorem digits_nil : Digits [] := by
  intro char member
  contradiction

theorem digits_takeWhile (chars : List Char) : Digits (chars.takeWhile Char.isDigit) :=
  fun _ => List.mem_takeWhile_imp

theorem isDigit_point : Char.isDigit '.' = false := by
  decide

/-! ### Which texts spell a decimal -/

theorem decimal?_whole (digits : Digits whole) (filled : whole ≠ []) :
    decimal? whole = some (.ofDigits whole []) := by
  rw [decimal?, List.takeWhile_eq_self_iff.mpr digits, List.dropWhile_eq_nil_iff.mpr digits]
  simp [filled]

theorem digits_cut (digits : Digits whole) (noDigit : char.isDigit = false) (others : List Char) :
    (whole ++ char :: others).takeWhile Char.isDigit = whole ∧
      (whole ++ char :: others).dropWhile Char.isDigit = char :: others := by
  apply part_of_test digits
  rintro symbol ⟨⟩
  exact noDigit

theorem decimal?_pointed (digits : Digits whole) (digits' : Digits fraction)
    (filled : ¬ (whole = [] ∧ fraction = [])) :
    decimal? (whole ++ '.' :: fraction) = some (.ofDigits whole fraction) := by
  obtain ⟨taken, left⟩ := digits_cut digits isDigit_point fraction
  have all : fraction.all Char.isDigit = true := List.all_eq_true.mpr digits'
  rw [decimal?, taken, left]
  simpa [all] using filled

theorem decimal?_of_symbol (digits : Digits whole) (noDigit : char.isDigit = false)
    (noPoint : char ≠ '.') (others : List Char) : decimal? (whole ++ char :: others) = none := by
  obtain ⟨taken, left⟩ := digits_cut digits noDigit others
  rw [decimal?, taken, left]
  simp [noPoint]

theorem decimal?_of_second (digits : Digits whole) (fraction : List Char)
    (noDigit : char.isDigit = false) (others : List Char) :
    decimal? (whole ++ '.' :: (fraction ++ char :: others)) = none := by
  obtain ⟨taken, left⟩ := digits_cut digits isDigit_point (fraction ++ char :: others)
  rw [decimal?, taken, left]
  simp [noDigit]

/-! ### The search -/

theorem beginnings_append (front rest : List Char) :
    beginnings (front ++ rest) =
      (beginnings rest).map (front ++ ·) ++ beginnings front := by
  have longer : (List.range' (1 + front.length) rest.length).map (front ++ rest).take =
      ((List.range' 1 rest.length).map rest.take).map (front ++ ·) := by
    rw [Nat.add_comm, ← List.map_add_range', List.map_map, List.map_map]
    exact List.map_congr_left fun stop _ => List.take_length_add_append stop
  have shorter : (List.range' 1 front.length).map (front ++ rest).take =
      (List.range' 1 front.length).map front.take := by
    apply List.map_congr_left
    intro stop member
    have bounds := List.mem_range'_1.mp member
    exact List.take_append_of_le_length (by omega)
  rw [beginnings, beginnings, beginnings, List.length_append, ← List.range'_append_1,
    List.reverse_append, List.map_append, List.map_reverse, List.map_reverse, List.map_reverse,
    List.map_reverse, longer, shorter, List.map_reverse]

theorem ne_nil_of_mem_beginnings (member : front ∈ beginnings literal) :
    front ≠ [] ∧ front <+: literal := by
  obtain ⟨stop, within, rfl⟩ := List.mem_map.mp member
  have bounds := List.mem_range'_1.mp (List.mem_reverse.mp within)
  refine ⟨List.ne_nil_of_length_pos ?_, List.take_prefix stop literal⟩
  rw [List.length_take]
  omega

/-- What follows has no say if with none of it a beginning spells a decimal. -/
theorem value_append (stops : ∀ longer, longer ≠ [] → longer <+: rest →
    decimal? (front ++ longer) = none) : value (front ++ rest) = value front := by
  have longer : ((beginnings rest).map (front ++ ·)).findSome? number? = none := by
    apply List.findSome?_eq_none_iff.mpr
    intro text member
    obtain ⟨more, within, rfl⟩ := List.mem_map.mp member
    obtain ⟨filled, beginning⟩ := ne_nil_of_mem_beginnings within
    rw [number?, stops more filled beginning, Option.map_none]
  rw [value, beginnings_append, List.findSome?_append, longer, Option.none_or, value]

/-- A literal that spells a decimal is its own longest beginning. -/
theorem value_of_decimal? (spells : decimal? literal = some spelled) :
    value literal = spelled.rounded := by
  obtain ⟨count, length⟩ : ∃ count, literal.length = count + 1 := by
    apply Nat.exists_eq_add_one_of_ne_zero
    intro empty
    obtain rfl := List.eq_nil_of_length_eq_zero empty
    contradiction
  rw [value, beginnings, length, List.range'_1_concat, List.reverse_concat, List.map_cons,
    List.findSome?_cons, Nat.add_comm, ← length, List.take_length, number?, spells]
  rfl

theorem value_whole (digits : Digits whole) :
    value whole = (Decimal.ofDigits whole []).rounded := by
  by_cases empty : whole = []
  · subst empty
    decide +kernel
  · exact value_of_decimal? (decimal?_whole digits empty)

theorem value_pointed (digits : Digits whole) (digits' : Digits fraction) :
    value (whole ++ '.' :: fraction) = (Decimal.ofDigits whole fraction).rounded := by
  by_cases empty : whole = [] ∧ fraction = []
  · obtain ⟨rfl, rfl⟩ := empty
    decide +kernel
  · exact value_of_decimal? (decimal?_pointed digits digits' empty)

/-- What a text goes on with behind its digits begins with a symbol that is none. -/
theorem exists_symbol {chars longer : List Char} (filled : longer ≠ [])
    (beginning : longer <+: chars.dropWhile Char.isDigit) :
    ∃ char others, longer = char :: others ∧ char.isDigit = false ∧
      (chars.dropWhile Char.isDigit).head? = some char := by
  obtain ⟨char, others, rfl⟩ := List.exists_cons_of_ne_nil filled
  obtain ⟨last, behind⟩ := beginning
  have head : (chars.dropWhile Char.isDigit).head? = some char := by
    rw [← behind]
    rfl
  exact ⟨char, others, rfl, head_dropWhile_fails char head, head⟩

/-- The digits of a literal up to its second point are rounded. -/
theorem value_eq (literal : List Char) : value literal = (decimal literal).rounded := by
  have digits := digits_takeWhile literal
  unfold decimal
  split
  · next rest point =>
    have upTo := calc
      value literal = value ((literal.takeWhile Char.isDigit ++
          '.' :: rest.takeWhile Char.isDigit) ++ rest.dropWhile Char.isDigit) := by
        rw [List.append_assoc, List.cons_append, List.takeWhile_append_dropWhile, ← point,
          List.takeWhile_append_dropWhile]
      _ = value (literal.takeWhile Char.isDigit ++ '.' :: rest.takeWhile Char.isDigit) := by
        apply value_append
        intro longer filled beginning
        obtain ⟨char, others, rfl, noDigit, -⟩ := exists_symbol filled beginning
        rw [List.append_assoc, List.cons_append]
        exact decimal?_of_second digits _ noDigit others
    exact upTo.trans (value_pointed digits (digits_takeWhile rest))
  · next noPoint =>
    have upTo := calc
      value literal = value (literal.takeWhile Char.isDigit ++
          literal.dropWhile Char.isDigit) := by
        rw [List.takeWhile_append_dropWhile]
      _ = value (literal.takeWhile Char.isDigit) := by
        apply value_append
        intro longer filled beginning
        obtain ⟨char, others, rfl, noDigit, head⟩ := exists_symbol filled beginning
        apply decimal?_of_symbol digits noDigit
        rintro rfl
        obtain ⟨behind, point⟩ := List.head?_eq_some_iff.mp head
        exact noPoint behind point
    exact upTo.trans (value_whole digits)

end OpLang.Literal
