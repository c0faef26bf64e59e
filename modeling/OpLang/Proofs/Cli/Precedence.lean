import OpLang.Cli.Program
import OpLang.Proofs.Number.Integer
import OpLang.Proofs.Operators

/-! # What precedences given as text amount to

A text gives a precedence if it is an ASCII character, an equals sign and an integer of 32 bits.
Texts are entered one after the other: all of them have to give a precedence, the last one that
names an operator decides about it, and what no text names stays as it is.
-/

namespace OpLang

/-- A text gives an operator this precedence. -/
structure Specifies (spec : String) (operator : Char) (precedence : Int) : Prop where
  ascii : operator.toNat < 128
  written : ∃ integer, spec.toList = operator :: '=' :: integer ∧ Integral integer precedence
  lower : -2 ^ 31 ≤ precedence
  upper : precedence ≤ 2 ^ 31 - 1

/-- A text gives some operator some precedence. -/
def IsSpec (spec : String) : Prop := ∃ operator precedence, Specifies spec operator precedence

/-- No text gives the character a precedence. -/
def Unnamed (specs : List String) (char : Char) : Prop :=
  ∀ spec ∈ specs, ∀ precedence, ¬ Specifies spec char precedence

/-- A table has the precedences that texts give, those of the last text for an operator, and else
the entries of another table. -/
structure Entered (specs : List String) (operators result : Operators) : Prop where
  named : ∀ before spec after operator precedence, specs = before ++ spec :: after →
    Specifies spec operator precedence → Unnamed after operator →
    result.table[operator]?.map Int32.toInt = some precedence
  unnamed : ∀ char, Unnamed specs char → result.table[char]? = operators.table[char]?

/-- The first of some texts that gives no precedence has this fault. -/
def FirstFault (specs : List String) (fault : PrecedenceFault) : Prop :=
  ∃ before spec after, specs = before ++ spec :: after ∧ (∀ earlier ∈ before, IsSpec earlier) ∧
    ¬ IsSpec spec ∧ parsePrecedence spec = .error fault

variable {spec : String} {specs before after : List String} {operators result : Operators}
  {operator char : Char} {precedence : Int32} {fault : PrecedenceFault}

/-! ### One text -/

theorem parsePrecedence_eq_ok_iff :
    parsePrecedence spec = .ok (operator, precedence) ↔
      Specifies spec operator precedence.toInt := by
  constructor
  · intro read
    unfold parsePrecedence at read
    split at read
    case h_1 => cases read
    case h_2 first rest shape =>
      split at read
      case isTrue => cases read
      case isFalse ascii =>
        split at read
        case h_2 => cases read
        case h_1 digits =>
          split at read
          case h_2 => cases read
          case h_1 value number =>
            cases read
            exact ⟨by simpa [isAscii] using ascii,
              ⟨digits, shape, parseInt32_eq_ok_iff.mp number⟩, precedence.le_toInt,
              Int.le_sub_one_of_lt precedence.toInt_lt⟩
  · rintro ⟨ascii, ⟨digits, shape, written⟩, -, -⟩
    have ascii : isAscii operator = true := decide_eq_true ascii
    simp only [parsePrecedence, shape, ascii, Bool.not_true, Bool.false_eq_true, if_false,
      parseInt32_eq_ok_iff.mpr written]

/-- What a text gives fits into 32 bits, so it is what is read. -/
theorem Specifies.read {integer : Int} (specifies : Specifies spec operator integer) :
    ∃ precedence : Int32,
      precedence.toInt = integer ∧ parsePrecedence spec = .ok (operator, precedence) := by
  have fits : (Int32.ofInt integer).toInt = integer :=
    Int32.toInt_ofInt_of_le specifies.lower (Int.lt_of_le_sub_one specifies.upper)
  exact ⟨_, fits, parsePrecedence_eq_ok_iff.mpr (fits.symm ▸ specifies)⟩

theorem isSpec_iff : IsSpec spec ↔ ∃ found, parsePrecedence spec = .ok found := by
  constructor
  · rintro ⟨operator, integer, specifies⟩
    obtain ⟨precedence, -, read⟩ := specifies.read
    exact ⟨_, read⟩
  · rintro ⟨⟨operator, precedence⟩, read⟩
    exact ⟨operator, _, parsePrecedence_eq_ok_iff.mp read⟩

theorem not_isSpec_of_error (failed : parsePrecedence spec = .error fault) : ¬ IsSpec spec := by
  intro valid
  obtain ⟨found, read⟩ := isSpec_iff.mp valid
  rw [failed] at read
  cases read

/-! ### Texts one after the other -/

theorem installSpecs_append (before after : List String) (operators : Operators) :
    installSpecs operators (before ++ after) =
      (installSpecs operators before).bind (installSpecs · after) := by
  induction before generalizing operators with
  | nil => rfl
  | cons spec before ih =>
    rw [List.cons_append, installSpecs, installSpecs]
    cases parsePrecedence spec with
    | ok found => exact ih _
    | error fault => rfl

theorem exists_installSpecs (operators : Operators) (valid : ∀ spec ∈ specs, IsSpec spec) :
    ∃ result, installSpecs operators specs = .ok result := by
  induction specs generalizing operators with
  | nil => exact ⟨operators, rfl⟩
  | cons spec specs ih =>
    obtain ⟨first, rest⟩ := List.forall_mem_cons.mp valid
    obtain ⟨⟨operator, precedence⟩, read⟩ := isSpec_iff.mp first
    rw [installSpecs, read]
    exact ih _ rest

/-- The fault of some texts is that of the first one that gives no precedence. -/
theorem installSpecs_eq_error_iff (operators : Operators) :
    installSpecs operators specs = .error fault ↔ FirstFault specs fault := by
  constructor
  · intro failed
    induction specs generalizing operators with
    | nil => cases failed
    | cons spec specs ih =>
      rw [installSpecs] at failed
      cases read : parsePrecedence spec with
      | error cause =>
        rw [read] at failed
        cases failed
        exact ⟨[], spec, specs, rfl, List.forall_mem_nil _, not_isSpec_of_error read, read⟩
      | ok found =>
        rw [read] at failed
        obtain ⟨before, faulty, after, rfl, earlier, last⟩ := ih _ failed
        exact ⟨spec :: before, faulty, after, rfl,
          List.forall_mem_cons.mpr ⟨isSpec_iff.mpr ⟨found, read⟩, earlier⟩, last⟩
  · rintro ⟨before, spec, after, rfl, earlier, -, failed⟩
    obtain ⟨result, installed⟩ := exists_installSpecs operators earlier
    rw [installSpecs_append, installed]
    simp only [Except.bind, installSpecs, failed]

theorem isSpec_of_installSpecs (installed : installSpecs operators specs = .ok result) :
    ∀ spec ∈ specs, IsSpec spec := by
  intro spec member
  obtain ⟨before, after, rfl⟩ := List.append_of_mem member
  by_contra invalid
  rw [installSpecs_append] at installed
  cases front : installSpecs operators before with
  | error fault => rw [front] at installed; cases installed
  | ok others =>
    rw [front] at installed
    cases read : parsePrecedence spec with
    | ok found => exact invalid (isSpec_iff.mpr ⟨found, read⟩)
    | error fault => simp only [Except.bind, installSpecs, read, reduceCtorEq] at installed

/-- What no text names keeps its entry. -/
theorem getElem?_of_unnamed (installed : installSpecs operators specs = .ok result)
    (unnamed : Unnamed specs char) : result.table[char]? = operators.table[char]? := by
  induction specs generalizing operators with
  | nil => cases installed; rfl
  | cons spec specs ih =>
    obtain ⟨other, rest⟩ := List.forall_mem_cons.mp unnamed
    rw [installSpecs] at installed
    cases read : parsePrecedence spec with
    | error fault => rw [read] at installed; cases installed
    | ok found =>
      obtain ⟨operator, precedence⟩ := found
      rw [read] at installed
      have distinct : ¬ compare operator char = .eq := by
        intro same
        obtain rfl := Std.LawfulEqOrd.eq_of_compare same
        exact other _ (parsePrecedence_eq_ok_iff.mp read)
      rw [ih installed rest, Operators.install, Std.TreeMap.getElem?_insert, if_neg distinct]

theorem entered_of_installSpecs (installed : installSpecs operators specs = .ok result) :
    Entered specs operators result where
  named := by
    rintro before spec after operator integer rfl specifies unnamed
    obtain ⟨precedence, rfl, read⟩ := specifies.read
    rw [installSpecs_append] at installed
    cases front : installSpecs operators before with
    | error fault => rw [front] at installed; cases installed
    | ok others =>
      simp only [front, Except.bind, installSpecs, read] at installed
      rw [getElem?_of_unnamed installed unnamed, Operators.install,
        Std.TreeMap.getElem?_insert_self, Option.map_some]
  unnamed _ := getElem?_of_unnamed installed

/-! ### Settings -/

/-- A precedence in decimal is what gives that precedence. -/
theorem specifies_toString (ascii : operator.toNat < 128) (precedence : Int32) :
    Specifies (String.singleton operator ++ "=" ++ toString precedence.toInt) operator
      precedence.toInt where
  ascii := ascii
  written := ⟨_, by simp, integral_toString precedence.toInt⟩
  lower := precedence.le_toInt
  upper := Int.le_sub_one_of_lt precedence.toInt_lt

/-- Settings are made exactly if every text gives a precedence. The last text for an operator
decides about it, other characters are as in the standard table, and else the fault is that of the
first text that gives no precedence. Any precedence is read back from its decimal notation. -/
theorem Cli.settings_of_specs (options : Options) :
    ((∃ settings, Cli.settings options = .ok settings) ↔
        ∀ spec ∈ options.precedences, IsSpec spec) ∧
      (∀ settings, Cli.settings options = .ok settings →
        Entered options.precedences .standard settings.operators ∧
          settings.allowRepeatedParameters = !options.strictParameters) ∧
      (∀ fault, Cli.settings options = .error fault ↔ FirstFault options.precedences fault) ∧
      ∀ (operator : Char) (precedence : Int32), operator.toNat < 128 →
        parsePrecedence (String.singleton operator ++ "=" ++ toString precedence.toInt) =
          .ok (operator, precedence) := by
  have reads (operator : Char) (precedence : Int32) (ascii : operator.toNat < 128) :=
    parsePrecedence_eq_ok_iff.mpr (specifies_toString ascii precedence)
  rw [Cli.settings]
  cases installed : installSpecs .standard options.precedences with
  | ok operators =>
    refine ⟨⟨fun _ => isSpec_of_installSpecs installed, fun _ => ⟨_, rfl⟩⟩, ?_, ?_, reads⟩
    · rintro settings ⟨⟩
      exact ⟨entered_of_installSpecs installed, rfl⟩
    · intro fault
      rw [← installSpecs_eq_error_iff .standard, installed]
      exact ⟨nofun, nofun⟩
  | error cause =>
    refine ⟨⟨nofun, fun valid => ?_⟩, nofun, ?_, reads⟩
    · obtain ⟨operators, made⟩ := exists_installSpecs .standard valid
      rw [installed] at made
      cases made
    · intro fault
      rw [← installSpecs_eq_error_iff .standard, installed]
      exact ⟨fun same => by cases same; rfl, fun same => by cases same; rfl⟩

example : parsePrecedence "==+007" = .ok ('=', 7) := by decide

example : parsePrecedence "+=2147483648" = .error (.invalidNumber "+=2147483648" .tooLarge) := by
  decide

end OpLang
