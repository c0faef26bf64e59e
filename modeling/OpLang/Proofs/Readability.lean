import OpLang.Proofs.Number.Shortest
import OpLang.Proofs.Parser.Soundness

/-! # Unique readability

The text of an item shows which item it is. Numbers and names are made of characters that all come
behind blanks and parentheses, so what follows one of them shows where it ends; everything else is
bracketed, and the second character of a bracket shows what it holds, because no operator is a
letter. A parenthesis may be an operator itself: it is looked for where an operator has to stand,
and nowhere else. An infinite number would have the text of a variable, so numbers have to be
finite.
-/

namespace OpLang

/-- Characters of a name or a number. -/
structure IsAtom (chars : List Char) : Prop where
  filled : chars ≠ []
  behind : ∀ char ∈ chars, ')' < char

/-- What may follow a name or a number: nothing, or something that begins with a blank or a
parenthesis. -/
def Closed (chars : List Char) : Prop := ∀ char ∈ chars.head?, char ≤ ')'

/-- Two things whose texts differ, whatever closes them, unless the things are the same. -/
def ToldApart {α : Type} (chars : α → List Char) (left right : α) : Prop :=
  ∀ rest rest' : List Char, Closed rest → Closed rest' →
    chars left ++ rest = chars right ++ rest' → left = right ∧ rest = rest'

theorem closed_cons {char : Char} {chars : List Char} (least : char ≤ ')') :
    Closed (char :: chars) := by
  rintro _ ⟨⟩
  exact least

theorem closed_blank (chars : List Char) : Closed (' ' :: chars) := closed_cons (by decide)

theorem closed_opening (chars : List Char) : Closed ('(' :: chars) := closed_cons (by decide)

theorem closed_closing (chars : List Char) : Closed (')' :: chars) := closed_cons (by decide)

namespace IsAtom

variable {chars chars' rest rest' : List Char}

theorem of_toNat (filled : chars ≠ []) (bound : ∀ char ∈ chars, 41 < char.toNat) :
    IsAtom chars :=
  ⟨filled, fun char member => UInt32.lt_iff_toNat_lt.mpr (bound char member)⟩

/-- An atom goes as far as what follows it allows. -/
theorem cut (atom : IsAtom chars) (atom' : IsAtom chars') (closed : Closed rest)
    (closed' : Closed rest') (same : chars ++ rest = chars' ++ rest') :
    chars = chars' ∧ rest = rest' := by
  have passes {atoms : List Char} (atom : IsAtom atoms) :
      ∀ char ∈ atoms, decide (')' < char) = true :=
    fun char member => decide_eq_true (atom.behind char member)
  have fails {others : List Char} (closed : Closed others) :
      ∀ char ∈ others.head?, decide (')' < char) = false :=
    fun char member => decide_eq_false (Std.not_lt.mpr (closed char member))
  obtain ⟨taken, left⟩ := part_of_test (passes atom) (fails closed)
  obtain ⟨taken', left'⟩ := part_of_test (passes atom') (fails closed')
  rw [same] at taken left
  exact ⟨taken.symm.trans taken', left.symm.trans left'⟩

/-- No atom begins the way that closed characters do. -/
theorem ne_closed (atom : IsAtom chars) (closed : Closed rest') : chars ++ rest ≠ rest' := by
  rintro rfl
  obtain ⟨first, others, rfl⟩ := List.exists_cons_of_ne_nil atom.filled
  have behind := atom.behind first (by simp)
  exact absurd (closed first rfl) (Std.not_le.mpr behind)

end IsAtom

theorem IsName.isAtom {name : String} (isName : IsName name) : IsAtom name.toList := by
  apply IsAtom.of_toNat
  · intro empty
    have begins := isName.begins
    simp [empty] at begins
  · intro char member
    have inside := bounds_of_isAlphanum (List.all_eq_true.mp isName.word char member)
    omega

theorem IsPlain.isAtom {literal : List Char} (plain : IsPlain literal) : IsAtom literal := by
  apply IsAtom.of_toNat
  · rintro rfl
    exact absurd plain.digit (by decide)
  · intro char member
    have inside := bounds_of_isPart (List.all_eq_true.mp plain.parts char member)
    omega

/-- A literal is no name, for it does not begin with a letter. -/
theorem IsName.ne_plain {name : String} {literal : List Char} (isName : IsName name)
    (plain : IsPlain literal) : name.toList ≠ literal := by
  rintro rfl
  have begins := isName.begins
  cases chars : name.toList with
  | nil => simp [chars] at begins
  | cons first others =>
    rw [chars] at begins
    have letter := bounds_of_isAlpha begins
    have part := List.all_eq_true.mp plain.parts first (by simp [chars])
    have digit := bounds_of_isPart part
    omega

theorem closed_blanked {α : Type} (chars : α → List Char) (others : List α) (rest : List Char) :
    Closed (others.flatMap (fun other => ' ' :: chars other) ++ ')' :: rest) := by
  cases others with
  | nil => exact closed_closing rest
  | cons => exact closed_blank _

/-- Things with blanks before them are told apart in a list if they are told apart one by one. -/
theorem toldApart_blanked {α : Type} {chars : α → List Char} {lefts rights : List α}
    (apart : ∀ left ∈ lefts, ∀ right ∈ rights, ToldApart chars left right)
    (rest rest' : List Char)
    (same : lefts.flatMap (fun left => ' ' :: chars left) ++ ')' :: rest =
      rights.flatMap (fun right => ' ' :: chars right) ++ ')' :: rest') :
    lefts = rights ∧ rest = rest' := by
  induction lefts generalizing rights with
  | nil =>
    cases rights with
    | nil => exact ⟨rfl, (List.cons.inj same).2⟩
    | cons right rights => simp at same
  | cons left lefts ih =>
    cases rights with
    | nil => simp at same
    | cons right rights =>
      simp only [List.flatMap_cons, List.cons_append, List.append_assoc, List.cons.injEq,
        true_and] at same
      obtain ⟨rfl, others⟩ := apart left (by simp) right (by simp) _ _
        (closed_blanked chars lefts rest) (closed_blanked chars rights rest') same
      have behind : ∀ left ∈ lefts, ∀ right ∈ rights, ToldApart chars left right :=
        fun left member right member' => apart left (by simp [member]) right (by simp [member'])
      obtain ⟨rfl, rests⟩ := ih behind others
      exact ⟨rfl, rests⟩

/-! ### Trees -/

/-- What trees have to be made of so that their texts can be read. -/
def Demands.readable : Demands where
  number value := value.isNegative = false ∧ value.isFinite = true
  name := IsName
  operator := IsSign

/-- The text of the tree can be read. -/
def Expr.Readable (tree : Expr) : Prop := tree.Meets .readable

/-- Every number of the tree is finite. -/
def Expr.AllFinite (tree : Expr) : Prop :=
  tree.Meets ⟨fun value => value.isFinite = true, fun _ => True, fun _ => True⟩

namespace Expr

variable {left right tree : Expr}

theorem Sound.readable {operators : Operators} (sound : tree.Sound operators)
    (finite : tree.AllFinite) : tree.Readable := by
  induction sound with
  | number met =>
    cases finite with
    | number finite => exact .number ⟨met.1, finite⟩
  | «variable» met => exact .variable met
  | binary met _ _ left right =>
    cases finite with
    | binary _ leftFinite rightFinite =>
      exact .binary met.2.1 (left leftFinite) (right rightFinite)
  | call met _ ih =>
    cases finite with
    | call _ inside =>
      exact .call met fun argument member => ih argument member (inside argument member)

@[simp] theorem toList_text_number (value : Binary64) :
    (number value).text.toList = value.chars := by
  simp [text, Binary64.text]

@[simp] theorem toList_text_variable (name : String) :
    («variable» name).text.toList = name.toList := by
  simp [text]

@[simp] theorem toList_text_binary (operator : Char) (left right : Expr) :
    (binary operator left right).text.toList =
      '(' :: operator :: ' ' :: (left.text.toList ++ ' ' :: (right.text.toList ++ [')'])) := by
  simp [text]

theorem toList_argumentsText (arguments : List Expr) :
    (argumentsText arguments).toList =
      arguments.flatMap fun argument => ' ' :: argument.text.toList := by
  induction arguments with
  | nil => simp [argumentsText]
  | cons argument arguments ih => simp [argumentsText, ih]

@[simp] theorem toList_text_call (callee : String) (arguments : List Expr) :
    (call callee arguments).text.toList = '(' :: 'c' :: 'a' :: 'l' :: 'l' :: ' ' ::
      (callee.toList ++
        (arguments.flatMap (fun argument => ' ' :: argument.text.toList) ++ [')'])) := by
  simp [text, toList_argumentsText]

section Shapes

variable {other : Expr}

theorem toldApart_number {value : Binary64} (met : Demands.readable.number value)
    (readable : other.Readable) :
    ToldApart (fun tree : Expr => tree.text.toList) (number value) other := by
  intro rest rest' closed closed' same
  dsimp only at same
  have plain := Binary64.isPlain_chars met.1 met.2
  rw [toList_text_number] at same
  cases readable with
  | @number value' met' =>
    rw [toList_text_number] at same
    have plain' := Binary64.isPlain_chars met'.1 met'.2
    obtain ⟨chars, rests⟩ := plain.isAtom.cut plain'.isAtom closed closed' same
    have values := Binary64.eq_of_chars_eq met.1 met.2 met'.1 met'.2 chars
    exact ⟨congrArg number values, rests⟩
  | «variable» met' =>
    rw [toList_text_variable] at same
    obtain ⟨chars, _⟩ := plain.isAtom.cut (IsName.isAtom met') closed closed' same
    exact absurd chars.symm (IsName.ne_plain met' plain)
  | binary =>
    rw [toList_text_binary] at same
    exact absurd same (plain.isAtom.ne_closed (closed_opening _))
  | call =>
    rw [toList_text_call] at same
    exact absurd same (plain.isAtom.ne_closed (closed_opening _))

theorem toldApart_variable {name : String} (isName : IsName name) (readable : other.Readable) :
    ToldApart (fun tree : Expr => tree.text.toList) («variable» name) other := by
  intro rest rest' closed closed' same
  dsimp only at same
  rw [toList_text_variable] at same
  cases readable with
  | number met' =>
    have plain' := Binary64.isPlain_chars met'.1 met'.2
    rw [toList_text_number] at same
    obtain ⟨chars, _⟩ := isName.isAtom.cut plain'.isAtom closed closed' same
    exact absurd chars (isName.ne_plain plain')
  | «variable» met' =>
    rw [toList_text_variable] at same
    obtain ⟨chars, rests⟩ := isName.isAtom.cut (IsName.isAtom met') closed closed' same
    exact ⟨congrArg «variable» (String.toList_injective chars), rests⟩
  | binary =>
    rw [toList_text_binary] at same
    exact absurd same (isName.isAtom.ne_closed (closed_opening _))
  | call =>
    rw [toList_text_call] at same
    exact absurd same (isName.isAtom.ne_closed (closed_opening _))

theorem toldApart_binary {operator : Char} {left right : Expr} (sign : IsSign operator)
    (leftApart : ∀ other : Expr, other.Readable →
      ToldApart (fun tree : Expr => tree.text.toList) left other)
    (rightApart : ∀ other : Expr, other.Readable →
      ToldApart (fun tree : Expr => tree.text.toList) right other) (readable : other.Readable) :
    ToldApart (fun tree : Expr => tree.text.toList) (binary operator left right) other := by
  intro rest rest' closed closed' same
  dsimp only at same
  rw [toList_text_binary] at same
  cases readable with
  | number met' =>
    rw [toList_text_number] at same
    have plain' := Binary64.isPlain_chars met'.1 met'.2
    exact absurd same.symm (plain'.isAtom.ne_closed (closed_opening _))
  | «variable» met' =>
    rw [toList_text_variable] at same
    exact absurd same.symm ((IsName.isAtom met').ne_closed (closed_opening _))
  | binary _ leftReadable rightReadable =>
    rw [toList_text_binary] at same
    simp only [List.cons_append, List.append_assoc, List.cons.injEq, true_and,
      List.nil_append] at same
    obtain ⟨rfl, operands⟩ := same
    obtain ⟨rfl, second⟩ :=
      leftApart _ leftReadable _ _ (closed_blank _) (closed_blank _) operands
    obtain ⟨rfl, rests⟩ :=
      rightApart _ rightReadable _ _ (closed_closing _) (closed_closing _) (List.cons.inj second).2
    exact ⟨rfl, (List.cons.inj rests).2⟩
  | call =>
    rw [toList_text_call] at same
    simp only [List.cons_append, List.cons.injEq] at same
    obtain ⟨_, rfl, _⟩ := same
    exact absurd sign.notAlpha (by decide)

theorem toldApart_call {callee : String} {arguments : List Expr} (isName : IsName callee)
    (argumentsApart : ∀ argument ∈ arguments, ∀ other : Expr, other.Readable →
      ToldApart (fun tree : Expr => tree.text.toList) argument other) (readable : other.Readable) :
    ToldApart (fun tree : Expr => tree.text.toList) (call callee arguments) other := by
  intro rest rest' closed closed' same
  dsimp only at same
  rw [toList_text_call] at same
  cases readable with
  | number met' =>
    rw [toList_text_number] at same
    have plain' := Binary64.isPlain_chars met'.1 met'.2
    exact absurd same.symm (plain'.isAtom.ne_closed (closed_opening _))
  | «variable» met' =>
    rw [toList_text_variable] at same
    exact absurd same.symm ((IsName.isAtom met').ne_closed (closed_opening _))
  | binary met' =>
    rw [toList_text_binary] at same
    simp only [List.cons_append, List.cons.injEq] at same
    obtain ⟨_, rfl, _⟩ := same
    exact absurd met'.notAlpha (by decide)
  | @call _ others met' inside =>
    rw [toList_text_call] at same
    simp only [List.cons_append, List.append_assoc, List.cons.injEq, true_and,
      List.nil_append] at same
    obtain ⟨chars, behind⟩ := isName.isAtom.cut (IsName.isAtom met') (closed_blanked _ _ _)
      (closed_blanked _ _ _) same
    obtain rfl := String.toList_injective chars
    have apart : ∀ argument ∈ arguments, ∀ other ∈ others,
        ToldApart (fun tree : Expr => tree.text.toList) argument other := by
      intro argument member other member'
      exact argumentsApart argument member other (inside other member')
    obtain ⟨rfl, rests⟩ := toldApart_blanked apart _ _ behind
    exact ⟨rfl, rests⟩

end Shapes

/-- Trees are told apart by their texts. -/
theorem toldApart (readable : left.Readable) (readable' : right.Readable) :
    ToldApart (fun tree : Expr => tree.text.toList) left right := by
  induction readable generalizing right with
  | number met => exact toldApart_number met readable'
  | «variable» met => exact toldApart_variable met readable'
  | binary met _ _ leftApart rightApart =>
    exact toldApart_binary met (fun _ => leftApart) (fun _ => rightApart) readable'
  | call met _ apart =>
    exact toldApart_call met (fun argument member _ => apart argument member) readable'

end Expr

/-! ### Prototypes and items -/

/-- The text of the prototype can be read. -/
structure Prototype.Readable (prototype : Prototype) : Prop where
  name : IsAtom prototype.name.toList
  parameters : ∀ parameter ∈ prototype.parameters, IsAtom parameter.toList

/-- The text of the item can be read. -/
structure Item.Readable (item : Item) : Prop where
  prototype : item.prototype.Readable
  body : ∀ function, item = .function function → function.body.Readable

/-- Every number of the item is finite. -/
def Item.AllFinite : Item → Prop
  | .declaration _ => True
  | .function defined => defined.body.AllFinite

theorem Item.Sound.readable {settings : Settings} {kind : ItemKind} {item : Item}
    (sound : item.Sound settings kind) (finite : item.AllFinite) : item.Readable := by
  have letters : (Prototype.anonymousName.toList.all fun char => 41 < char.toNat) = true := by
    decide
  have anonymous : IsAtom Prototype.anonymousName.toList :=
    .of_toNat (by decide) fun char member =>
      of_decide_eq_true (List.all_eq_true.mp letters char member)
  have named : IsAtom item.prototype.name.toList := by
    by_cases bare : kind = .expression
    · cases item with
      | declaration prototype =>
        have declares := sound.declares.mpr ⟨prototype, rfl⟩
        exact absurd (bare.symm.trans declares) (by decide)
      | function defined =>
        have same := (sound.anonymous defined rfl).mpr bare
        rw [show prototype (.function defined) = defined.prototype from rfl, eq_of_beq same]
        exact anonymous
    · exact (sound.name bare).isAtom
  refine ⟨⟨named, fun parameter member => (sound.parameters parameter member).isAtom⟩, ?_⟩
  rintro defined rfl
  exact (sound.body defined rfl).readable finite

theorem toldApart_atoms {left right : String} (atom : IsAtom left.toList)
    (atom' : IsAtom right.toList) : ToldApart String.toList left right := by
  intro rest rest' closed closed' same
  obtain ⟨chars, rests⟩ := atom.cut atom' closed closed' same
  exact ⟨String.toList_injective chars, rests⟩

theorem toList_intercalate_cons (first : String) (others : List String) :
    (" ".intercalate (first :: others)).toList =
      first.toList ++ others.flatMap (fun other => ' ' :: other.toList) := by
  induction others generalizing first with
  | nil => simp
  | cons second others ih =>
    have behind := ih second
    simp_all

/-- Parameters are told apart in a list, a blank between any two of them. -/
theorem toldApart_parameters {lefts rights : List String} {rest rest' : List Char}
    (atoms : ∀ parameter ∈ lefts, IsAtom parameter.toList)
    (atoms' : ∀ parameter ∈ rights, IsAtom parameter.toList)
    (same : (" ".intercalate lefts).toList ++ ')' :: rest =
      (" ".intercalate rights).toList ++ ')' :: rest') : lefts = rights ∧ rest = rest' := by
  cases lefts with
  | nil =>
    cases rights with
    | nil => exact ⟨rfl, (List.cons.inj same).2⟩
    | cons right rights =>
      rw [toList_intercalate_cons, List.append_assoc] at same
      exact absurd same.symm ((atoms' right (by simp)).ne_closed (closed_closing rest))
  | cons left lefts =>
    rw [toList_intercalate_cons, List.append_assoc] at same
    cases rights with
    | nil => exact absurd same ((atoms left (by simp)).ne_closed (closed_closing rest'))
    | cons right rights =>
      rw [toList_intercalate_cons, List.append_assoc] at same
      obtain ⟨rfl, behind⟩ := toldApart_atoms (atoms left (by simp)) (atoms' right (by simp)) _ _
        (closed_blanked _ _ _) (closed_blanked _ _ _) same
      have apart : ∀ left ∈ lefts, ∀ right ∈ rights, ToldApart String.toList left right :=
        fun left member right member' =>
          toldApart_atoms (atoms left (by simp [member])) (atoms' right (by simp [member']))
      obtain ⟨rfl, rests⟩ := toldApart_blanked apart rest rest' behind
      exact ⟨rfl, rests⟩

theorem Prototype.toList_text (prototype : Prototype) : prototype.text.toList =
    prototype.name.toList ++ '(' :: ((" ".intercalate prototype.parameters).toList ++ [')']) := by
  simp [text]

/-- Prototypes are told apart by their texts. -/
theorem Prototype.toldApart {left right : Prototype} (readable : left.Readable)
    (readable' : right.Readable) :
    ToldApart (fun prototype : Prototype => prototype.text.toList) left right := by
  intro rest rest' _ _ same
  simp only [toList_text, List.append_assoc, List.cons_append, List.nil_append] at same
  obtain ⟨name, behind⟩ := toldApart_atoms readable.name readable'.name
    _ _ (closed_opening _) (closed_opening _) same
  obtain ⟨parameters, rests⟩ :=
    toldApart_parameters readable.parameters readable'.parameters (List.cons.inj behind).2
  obtain ⟨_, _⟩ := left
  obtain ⟨_, _⟩ := right
  exact ⟨congrArg₂ mk name parameters, rests⟩

namespace Item

variable {left right : Item}

theorem toList_text_declaration (prototype : Prototype) : (declaration prototype).text.toList =
    "(extern ".toList ++ (prototype.text.toList ++ [')']) := by
  simp [text]

theorem toList_text_function (defined : Function) : (function defined).text.toList =
    "(def ".toList ++
      (defined.prototype.text.toList ++ ' ' :: (defined.body.text.toList ++ [')'])) := by
  simp [text, Function.text]

/-- Items are told apart by their texts. -/
theorem eq_of_text_eq (readable : left.Readable) (readable' : right.Readable)
    (same : left.text = right.text) : left = right := by
  have chars := congrArg String.toList same
  have closes := closed_closing []
  cases left with
  | declaration prototype =>
    cases right with
    | declaration prototype' =>
      rw [toList_text_declaration, toList_text_declaration] at chars
      have behind := List.append_cancel_left chars
      obtain ⟨prototypes, _⟩ :=
        Prototype.toldApart readable.prototype readable'.prototype _ _ closes closes behind
      exact congrArg declaration prototypes
    | function defined' =>
      rw [toList_text_declaration, toList_text_function] at chars
      simp at chars
  | function defined =>
    cases right with
    | declaration prototype' =>
      rw [toList_text_declaration, toList_text_function] at chars
      simp at chars
    | function defined' =>
      rw [toList_text_function, toList_text_function] at chars
      have behind := List.append_cancel_left chars
      obtain ⟨prototypes, behind⟩ := Prototype.toldApart readable.prototype readable'.prototype
        _ _ (closed_blank _) (closed_blank _) behind
      obtain ⟨bodies, _⟩ := Expr.toldApart (readable.body _ rfl) (readable'.body _ rfl)
        _ _ closes closes (List.cons.inj behind).2
      obtain ⟨_, _⟩ := defined
      obtain ⟨_, _⟩ := defined'
      exact congrArg function (congrArg₂ Function.mk prototypes bodies)

end Item

end OpLang
